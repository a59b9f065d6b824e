import Mathlib.Data.List.DropRight
import Mathlib.Data.Nat.Digits.Lemmas

/-! # Text and numbers in Python

`str` with its Unicode white space and decimal digits, `int(text)` and `str(number)`. The
digits of every script count as digits for `int`, so many texts denote one number, and only
one of them is its ASCII numeral.
-/

namespace Text

/-- A Unicode code point; Python's `str` admits lone surrogates. -/
abbrev CodePoint := Fin 0x110000

abbrev PyStr := List CodePoint

/-- The white space of `str.isspace`, first and last of each run. -/
def spaceRuns : List (ℕ × ℕ) :=
  [(0x9, 0xD), (0x1C, 0x20), (0x85, 0x85), (0xA0, 0xA0), (0x1680, 0x1680), (0x2000, 0x200A),
    (0x2028, 0x2029), (0x202F, 0x202F), (0x205F, 0x205F), (0x3000, 0x3000)]

def isSpace (c : CodePoint) : Bool := spaceRuns.any fun run => run.1 ≤ c.val ∧ c.val ≤ run.2

/-- `text.strip()`. -/
def strip (text : PyStr) : PyStr := (text.dropWhile isSpace).rdropWhile isSpace

/-- The zeros of the decimal digits of Unicode 15.0; the nine digits of a script follow. -/
def decimalZeros : List ℕ :=
  [0x30, 0x660, 0x6F0, 0x7C0, 0x966, 0x9E6, 0xA66, 0xAE6, 0xB66, 0xBE6, 0xC66, 0xCE6, 0xD66,
    0xDE6, 0xE50, 0xED0, 0xF20, 0x1040, 0x1090, 0x17E0, 0x1810, 0x1946, 0x19D0, 0x1A80, 0x1A90,
    0x1B50, 0x1BB0, 0x1C40, 0x1C50, 0xA620, 0xA8D0, 0xA900, 0xA9D0, 0xA9F0, 0xAA50, 0xABF0,
    0xFF10, 0x104A0, 0x10D30, 0x11066, 0x110F0, 0x11136, 0x111D0, 0x112F0, 0x11450, 0x114D0,
    0x11650, 0x116C0, 0x11730, 0x118E0, 0x11950, 0x11C50, 0x11D50, 0x11DA0, 0x11F50, 0x16A60,
    0x16AC0, 0x16B50, 0x1D7CE, 0x1D7D8, 0x1D7E2, 0x1D7EC, 0x1D7F6, 0x1E140, 0x1E2F0, 0x1E4F0,
    0x1E950, 0x1FBF0]

/-- `unicodedata.decimal(c)`. -/
def decimal? (c : CodePoint) : Option ℕ :=
  (decimalZeros.find? fun first => first ≤ c.val ∧ c.val < first + 10).map fun first => c.val - first

/-- `c.isdecimal()`, which is what `\d` stands for. -/
def isDecimal (c : CodePoint) : Bool := (decimal? c).isSome

/-! ## `int(text)` -/

inductive IntError where
  | invalidLiteral
  | tooManyDigits (count : ℕ)
deriving DecidableEq

/-- The white space that `int` skips: without the ASCII separators. -/
def isIntSpace (c : CodePoint) : Bool := isSpace c && !(0x1C ≤ c.val ∧ c.val ≤ 0x1F : Bool)

def splitSign : PyStr → Bool × PyStr
  | [] => (false, [])
  | c :: rest =>
      if c.val = 0x2D then (true, rest)
      else if c.val = 0x2B then (false, rest)
      else (false, c :: rest)

/-- The digits at the front of a text, single underscores between them, and what follows.
`bare` says that the text begins here or an underscore came last. -/
def scanDigits : Bool → PyStr → Option (List ℕ × PyStr)
  | bare, [] => if bare then none else some ([], [])
  | bare, c :: rest =>
      if c.val = 0x5F then
        if bare then none else scanDigits true rest
      else
        match decimal? c with
        | some digit => (scanDigits false rest).map fun scanned => (digit :: scanned.1, scanned.2)
        | none => if bare then none else some ([], c :: rest)

/-- `sys.get_int_max_str_digits()`. -/
def maxStrDigits : ℕ := 4300

/-- `int(text)`. -/
def pyInt (text : PyStr) : Except IntError ℤ :=
  let signed := splitSign (text.dropWhile isIntSpace)
  match scanDigits true signed.2 with
  | none => .error .invalidLiteral
  | some (digits, rest) =>
      if maxStrDigits < digits.length then .error (.tooManyDigits digits.length)
      else if rest.all isIntSpace then
        let value : ℕ := Nat.ofDigits 10 digits.reverse
        .ok (if signed.1 then -(value : ℤ) else value)
      else .error .invalidLiteral

/-! ## `str(number)` -/

def asciiDigit (digit : ℕ) : CodePoint := Fin.ofNat 0x110000 (0x30 + digit)

def newline : CodePoint := Fin.ofNat 0x110000 0xA

def strOfNat (number : ℕ) : PyStr :=
  if number = 0 then [asciiDigit 0] else (Nat.digits 10 number).reverse.map asciiDigit

/-- `str(number)`. -/
def strOfInt (number : ℤ) : PyStr :=
  if number < 0 then Fin.ofNat 0x110000 0x2D :: strOfNat number.natAbs else strOfNat number.natAbs

/-! ## Numerals -/

/-- `0` to `9`. -/
def IsAsciiDigit (c : CodePoint) : Prop := 0x30 ≤ c.val ∧ c.val ≤ 0x39

/-- `1` to `9`. -/
def IsLeadingDigit (c : CodePoint) : Prop := 0x31 ≤ c.val ∧ c.val ≤ 0x39

instance (c : CodePoint) : Decidable (IsAsciiDigit c) := instDecidableAnd

instance (c : CodePoint) : Decidable (IsLeadingDigit c) := instDecidableAnd

/-- A decimal numeral, in the digits of any scripts after the first. -/
structure IsDecimalNumeral (text : PyStr) : Prop where
  leading : ∃ c rest, text = c :: rest ∧ IsLeadingDigit c
  decimal : ∀ c ∈ text, isDecimal c

/-- The numeral of a positive number: `1` to `9`, then `0` to `9`. -/
structure IsNumeral (text : PyStr) : Prop where
  leading : ∃ c rest, text = c :: rest ∧ IsLeadingDigit c
  ascii : ∀ c ∈ text, IsAsciiDigit c

def digitValue (c : CodePoint) : ℕ := (decimal? c).getD 0

/-- The number that a numeral denotes. -/
def numeralValue (text : PyStr) : ℕ := Nat.ofDigits 10 (text.map digitValue).reverse

/-! ## Digits -/

variable {c : CodePoint} {text : PyStr} {number : ℕ}

theorem decimal?_eq_some {digit : ℕ} (hdecimal : decimal? c = some digit) :
    digit < 10 ∧ ∃ first ∈ decimalZeros, c.val = first + digit := by
  obtain ⟨first, hfirst, rfl⟩ := Option.map_eq_some_iff.mp hdecimal
  have hrange := List.find?_some hfirst
  have hmem := List.mem_of_find?_eq_some hfirst
  simp only [decide_eq_true_eq] at hrange
  exact ⟨by omega, first, hmem, by omega⟩

theorem isDecimal_iff : isDecimal c ↔ ∃ digit, decimal? c = some digit := Option.isSome_iff_exists

theorem decimal?_of_ascii (hascii : IsAsciiDigit c) : decimal? c = some (c.val - 0x30) := by
  obtain ⟨hlow, hhigh⟩ := hascii
  have hfirst : (decide (0x30 ≤ c.val ∧ c.val < 0x30 + 10)) = true := by
    rw [decide_eq_true_eq]
    omega
  simp only [decimal?, decimalZeros, List.find?_cons, hfirst, Option.map_some]

theorem IsAsciiDigit.isDecimal (hascii : IsAsciiDigit c) : isDecimal c :=
  isDecimal_iff.mpr ⟨_, decimal?_of_ascii hascii⟩

theorem IsLeadingDigit.isAsciiDigit (hleading : IsLeadingDigit c) : IsAsciiDigit c :=
  ⟨by have := hleading.1; omega, hleading.2⟩

theorem digitValue_lt (c : CodePoint) : digitValue c < 10 := by
  unfold digitValue
  cases hdecimal : decimal? c with
  | none => decide
  | some digit => exact (decimal?_eq_some hdecimal).1

theorem digitValue_of_ascii (hascii : IsAsciiDigit c) : digitValue c = c.val - 0x30 := by
  rw [digitValue, decimal?_of_ascii hascii, Option.getD_some]

/-- The decimal digits are apart from white space, and none comes before `0`. -/
theorem decimalZeros_apart :
    ∀ first ∈ decimalZeros, 0x30 ≤ first ∧
      ∀ run ∈ spaceRuns, run.2 < first ∨ first + 9 < run.1 := by
  decide

theorem not_isSpace_of_isDecimal (hdecimal : isDecimal c) : isSpace c = false := by
  obtain ⟨digit, hdigit⟩ := isDecimal_iff.mp hdecimal
  obtain ⟨hlt, first, hfirst, hval⟩ := decimal?_eq_some hdigit
  rw [isSpace, List.any_eq_false]
  intro run hrun
  have hapart := (decimalZeros_apart first hfirst).2 run hrun
  simp only [decide_eq_true_eq]
  omega

theorem le_of_isDecimal (hdecimal : isDecimal c) : 0x30 ≤ c.val := by
  obtain ⟨digit, hdigit⟩ := isDecimal_iff.mp hdecimal
  obtain ⟨-, first, hfirst, hval⟩ := decimal?_eq_some hdigit
  have hlow := (decimalZeros_apart first hfirst).1
  omega

theorem underscore_not_decimal (hunderscore : c.val = 0x5F) : ¬ isDecimal c := by
  intro hdecimal
  obtain ⟨digit, hdigit⟩ := isDecimal_iff.mp hdecimal
  obtain ⟨hlt, first, hfirst, hval⟩ := decimal?_eq_some hdigit
  have hgap : ∀ first ∈ decimalZeros, first + 9 < 0x5F ∨ 0x5F < first := by decide
  have := hgap first hfirst
  omega

/-! ## `int` of a text of digits -/

theorem scanDigits_cons_of_decimal (bare : Bool) (rest : PyStr) (hdecimal : isDecimal c) :
    scanDigits bare (c :: rest) =
      (scanDigits false rest).map fun scanned => (digitValue c :: scanned.1, scanned.2) := by
  obtain ⟨digit, hdigit⟩ := isDecimal_iff.mp hdecimal
  have hunderscore : c.val ≠ 0x5F := fun heq => underscore_not_decimal heq hdecimal
  rw [scanDigits, if_neg hunderscore, hdigit, digitValue, hdigit]
  rfl

theorem scanDigits_of_decimal (hdecimal : ∀ c ∈ text, isDecimal c) :
    scanDigits false text = some (text.map digitValue, []) := by
  induction text with
  | nil => rfl
  | cons c rest ih =>
      obtain ⟨hc, hrest⟩ := List.forall_mem_cons.mp hdecimal
      rw [scanDigits_cons_of_decimal false rest hc, ih hrest]
      rfl

theorem pyInt_of_decimal (hne : text ≠ []) (hdecimal : ∀ c ∈ text, isDecimal c) :
    pyInt text = if maxStrDigits < text.length then .error (.tooManyDigits text.length)
      else .ok (numeralValue text) := by
  obtain ⟨c, rest, rfl⟩ := List.exists_cons_of_ne_nil hne
  obtain ⟨hc, hrest⟩ := List.forall_mem_cons.mp hdecimal
  have hspace : isIntSpace c = false := by rw [isIntSpace, not_isSpace_of_isDecimal hc, Bool.false_and]
  have hlow := le_of_isDecimal hc
  have hsign : splitSign (c :: rest) = (false, c :: rest) := by
    rw [splitSign, if_neg (by omega), if_neg (by omega)]
  have hscan : scanDigits true (c :: rest) = some ((c :: rest).map digitValue, []) := by
    rw [scanDigits_cons_of_decimal true rest hc, scanDigits_of_decimal hrest]
    rfl
  rw [pyInt, List.dropWhile_cons, hspace, if_neg Bool.false_ne_true, hsign]
  dsimp only
  rw [hscan]
  dsimp only
  rw [List.length_map, List.all_nil, if_pos rfl, if_neg Bool.false_ne_true, numeralValue]

theorem IsDecimalNumeral.last_ne_zero (hnumeral : IsDecimalNumeral text)
    (hne : (text.map digitValue).reverse ≠ []) : (text.map digitValue).reverse.getLast hne ≠ 0 := by
  obtain ⟨c, rest, rfl, hc⟩ := hnumeral.leading
  have hdigit := digitValue_of_ascii hc.isAsciiDigit
  have hlow := hc.1
  rw [List.getLast_reverse]
  simp only [List.map_cons, List.head_cons]
  omega

theorem IsDecimalNumeral.ne_nil (hnumeral : IsDecimalNumeral text) : text ≠ [] := by
  obtain ⟨c, rest, rfl, -⟩ := hnumeral.leading
  exact List.cons_ne_nil c rest

/-- A numeral below a power of ten has no more digits than that. -/
theorem IsDecimalNumeral.length_le (hnumeral : IsDecimalNumeral text) (bound : ℕ)
    (hvalue : numeralValue text < 10 ^ bound) : text.length ≤ bound := by
  have hne : (text.map digitValue).reverse ≠ [] := by simpa using hnumeral.ne_nil
  have hlength := Nat.pow_length_le_mul_ofDigits (b := 8) hne (hnumeral.last_ne_zero hne)
  rw [List.length_reverse, List.length_map] at hlength
  have hlt : 10 ^ text.length < 10 ^ (bound + 1) := by
    calc 10 ^ text.length ≤ 10 * numeralValue text := hlength
      _ < 10 * 10 ^ bound := by omega
      _ = 10 ^ (bound + 1) := by rw [pow_succ, mul_comm]
  exact Nat.lt_succ_iff.mp ((Nat.pow_lt_pow_iff_right (by decide)).mp hlt)

theorem IsDecimalNumeral.value_pos (hnumeral : IsDecimalNumeral text) : 1 ≤ numeralValue text := by
  by_contra hzero
  have hshort := hnumeral.length_le 0 (by omega)
  exact hnumeral.ne_nil (List.length_eq_zero_iff.mp (Nat.le_zero.mp hshort))

/-! ## Numerals and `str` -/

theorem IsNumeral.isDecimalNumeral (hnumeral : IsNumeral text) : IsDecimalNumeral text :=
  ⟨hnumeral.leading, fun c hc => (hnumeral.ascii c hc).isDecimal⟩

theorem asciiDigit_val {digit : ℕ} (hdigit : digit < 10) : (asciiDigit digit).val = 0x30 + digit :=
  Nat.mod_eq_of_lt (by omega)

theorem asciiDigit_digitValue (hascii : IsAsciiDigit c) : asciiDigit (digitValue c) = c := by
  refine Fin.ext ?_
  obtain ⟨hlow, hhigh⟩ := hascii
  rw [asciiDigit_val (digitValue_lt c), digitValue_of_ascii ⟨hlow, hhigh⟩]
  omega

theorem isAsciiDigit_asciiDigit {digit : ℕ} (hdigit : digit < 10) :
    IsAsciiDigit (asciiDigit digit) := by
  unfold IsAsciiDigit
  rw [asciiDigit_val hdigit]
  omega

/-- A numeral is what `str` prints for its value, so there is one for each number. -/
theorem IsNumeral.strOfNat_value (hnumeral : IsNumeral text) :
    strOfNat (numeralValue text) = text := by
  have hdecimal := hnumeral.isDecimalNumeral
  have hpos := hdecimal.value_pos
  have hdigits : Nat.digits 10 (numeralValue text) = (text.map digitValue).reverse := by
    refine Nat.digits_ofDigits 10 (by decide) _ (fun digit hdigit => ?_) hdecimal.last_ne_zero
    obtain ⟨d, -, rfl⟩ := List.mem_map.mp (List.mem_reverse.mp hdigit)
    exact digitValue_lt d
  rw [strOfNat, if_neg (by omega), hdigits, List.reverse_reverse, List.map_map]
  exact (List.map_congr_left fun d hd => asciiDigit_digitValue (hnumeral.ascii d hd)).trans
    (List.map_id _)

theorem isNumeral_strOfNat (hpos : 0 < number) : IsNumeral (strOfNat number) := by
  have hne : number ≠ 0 := by omega
  rw [strOfNat, if_neg hne]
  refine ⟨?_, fun c hc => ?_⟩
  · have hdigits : Nat.digits 10 number ≠ [] := Nat.digits_ne_nil_iff_ne_zero.mpr hne
    obtain ⟨front, last, hsplit⟩ := (List.eq_nil_or_concat' _).resolve_left hdigits
    have hlast := Nat.getLast_digit_ne_zero 10 hne
    have hlt : last < 10 := Nat.digits_lt_base (by decide) (hsplit ▸ List.mem_append_right front (List.mem_singleton_self last))
    simp only [hsplit, List.getLast_append_singleton] at hlast
    refine ⟨asciiDigit last, front.reverse.map asciiDigit, by simp [hsplit], ?_⟩
    unfold IsLeadingDigit
    rw [asciiDigit_val hlt]
    omega
  · obtain ⟨digit, hdigit, rfl⟩ := List.mem_map.mp hc
    exact isAsciiDigit_asciiDigit (Nat.digits_lt_base (by decide) (List.mem_reverse.mp hdigit))

theorem numeralValue_strOfNat (hpos : 0 < number) : numeralValue (strOfNat number) = number := by
  have hvalues : ∀ digit ∈ (Nat.digits 10 number).reverse,
      (digitValue ∘ asciiDigit) digit = id digit := by
    intro digit hdigit
    have hlt := Nat.digits_lt_base (by decide) (List.mem_reverse.mp hdigit)
    rw [Function.comp_apply, digitValue_of_ascii (isAsciiDigit_asciiDigit hlt), asciiDigit_val hlt]
    exact Nat.add_sub_cancel_left _ _
  rw [numeralValue, strOfNat, if_neg (by omega), List.map_map, List.map_congr_left hvalues,
    List.map_id, List.reverse_reverse, Nat.ofDigits_digits]

/-! ## `strip` -/

theorem strip_of_not_isSpace (hnone : ∀ c ∈ text, isSpace c = false) : strip text = text := by
  have hfront : text.dropWhile isSpace = text := by
    cases text with
    | nil => rfl
    | cons c rest => rw [List.dropWhile_cons, hnone c List.mem_cons_self, if_neg Bool.false_ne_true]
  rw [strip, hfront, List.rdropWhile_eq_self_iff]
  intro hne
  rw [hnone _ (List.getLast_mem hne)]
  exact Bool.false_ne_true

/-- What is left does not end in white space. -/
theorem not_isSpace_of_strip_eq {front : PyStr} (hstrip : strip text = front ++ [c]) :
    isSpace c = false := by
  have hrest : (text.dropWhile isSpace).rdropWhile isSpace = front ++ [c] := hstrip
  have hne : (text.dropWhile isSpace).rdropWhile isSpace ≠ [] := by
    rw [hrest]
    exact List.append_ne_nil_of_right_ne_nil front (List.cons_ne_nil c [])
  have hlast := List.rdropWhile_last_not isSpace (text.dropWhile isSpace) hne
  simp only [hrest, List.getLast_append_singleton] at hlast
  exact Bool.eq_false_iff.mpr hlast

end Text
