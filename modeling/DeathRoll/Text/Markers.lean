import Mathlib.Data.List.Infix

/-! # Markers in a text

A table names a class for each of its markers, and a text has the class of the first
marker that occurs in it. Where a filler that no marker reaches into stands between two
parts of a text, a marker occurs in the text exactly when it occurs in one of the parts.
-/

namespace Text

variable {χ γ : Type} {word before after filler : List χ} {c : χ}

/-! ## Fillers -/

/-- A character that a word does not have stands inside no occurrence of it. -/
theorem infix_append_cons (hc : c ∉ word) :
    word <:+: before ++ c :: after ↔ word <:+: before ∨ word <:+: after := by
  constructor
  · rintro ⟨first, last, heq⟩
    rw [List.append_assoc] at heq
    rcases List.append_eq_append_iff.mp heq with ⟨rest, rfl, hrest⟩ | ⟨rest, rfl, hrest⟩
    · -- the occurrence begins before `c`: it ends there too, or it would hold `c`
      rcases List.append_eq_append_iff.mp hrest with ⟨gap, rfl, -⟩ | ⟨past, rfl, hpast⟩
      · exact .inl ⟨first, gap, by rw [List.append_assoc]⟩
      · cases past with
        | nil => exact .inl ⟨first, [], by simp⟩
        | cons head tail =>
            obtain ⟨rfl, -⟩ := List.cons.inj hpast
            exact absurd (List.mem_append_right _ List.mem_cons_self) hc
    · cases rest with
      | nil =>
          cases word with
          | nil => exact .inr List.nil_infix
          | cons head tail =>
              obtain ⟨rfl, -⟩ := List.cons.inj hrest
              exact absurd List.mem_cons_self hc
      | cons head tail =>
          obtain ⟨-, htail⟩ := List.cons.inj hrest
          exact .inr ⟨tail, last, by rw [List.append_assoc, htail]; rfl⟩
  · rintro (hbefore | hafter)
    · exact hbefore.trans (List.prefix_append _ _).isInfix
    · exact hafter.trans ((List.suffix_cons _ _).trans (List.suffix_append _ _)).isInfix

/-- No occurrence of the word reaches into the filler, wherever the filler stands. -/
def Separates (filler word : List χ) : Prop :=
  ∀ before after : List χ,
    word <:+: before ++ (filler ++ after) ↔ word <:+: before ∨ word <:+: after

theorem Separates.single (hc : c ∉ word) : Separates [c] word := fun _ _ => infix_append_cons hc

/-- A filler of other characters than a word has. -/
theorem Separates.of_disjoint (hnonempty : filler ≠ []) (hdisjoint : ∀ c ∈ filler, c ∉ word) :
    Separates filler word := by
  induction filler with
  | nil => exact absurd rfl hnonempty
  | cons c filler ih =>
      intro before after
      rw [List.cons_append, infix_append_cons (hdisjoint c List.mem_cons_self)]
      cases filler with
      | nil => rfl
      | cons head tail =>
          have hrest := ih (List.cons_ne_nil _ _)
            (fun other hother => hdisjoint other (List.mem_cons_of_mem _ hother)) [] after
          rw [List.nil_append] at hrest
          rw [hrest, ← or_assoc]
          refine or_congr_left (or_iff_left_of_imp fun hnil => ?_)
          exact (List.infix_nil.mp hnil) ▸ List.nil_infix

/-- A filler between two characters that a word does not have, when it does not hold the
word itself. -/
theorem Separates.enclosed {first last : χ} {inner : List χ} (hfirst : first ∉ word)
    (hlast : last ∉ word) (hinner : ¬ word <:+: inner) :
    Separates (first :: (inner ++ [last])) word := by
  intro before after
  rw [List.cons_append, infix_append_cons hfirst, List.append_assoc, List.singleton_append,
    infix_append_cons hlast, or_iff_right hinner]

/-! ## Classes -/

variable [DecidableEq χ] {table : List (List χ × γ)} {text : List χ} {named : γ}

/-- The class of the first entry whose marker occurs in the text. -/
def classify (table : List (List χ × γ)) (text : List χ) : Option γ :=
  (table.find? fun entry => entry.1 <:+: text).map Prod.snd

theorem classify_eq_none_iff :
    classify table text = none ↔ ∀ entry ∈ table, ¬ entry.1 <:+: text := by
  simp [classify]

variable [DecidableEq γ]

/-- The entries of a table ahead of a class. -/
def aheadOf (table : List (List χ × γ)) (named : γ) : List (List χ × γ) :=
  table.takeWhile fun entry => entry.2 ≠ named

/-- A text that holds a class's marker has that class, unless it holds a marker of an entry
ahead of it. -/
theorem classify_eq_some_iff
    (hentry : table.find? (fun entry => entry.2 = named) = some (word, named))
    (hoccurs : word <:+: text) :
    classify table text = some named ↔ ∀ entry ∈ aheadOf table named, ¬ entry.1 <:+: text := by
  induction table with
  | nil => simp at hentry
  | cons entry table ih =>
      by_cases hclass : entry.2 = named
      · rw [List.find?_cons_of_pos (by simpa using hclass)] at hentry
        obtain rfl := Option.some.inj hentry
        simp [classify, aheadOf, hoccurs]
      · rw [List.find?_cons_of_neg (by simpa using hclass)] at hentry
        by_cases hmarker : entry.1 <:+: text
        · simp [classify, aheadOf, hmarker, hclass]
        · simpa [classify, aheadOf, hmarker, hclass] using ih hentry

end Text
