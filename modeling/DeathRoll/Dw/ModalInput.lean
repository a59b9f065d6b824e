import DeathRoll.Text.Numerals
import DeathRoll.Text.Regex

/-! # Amounts from a modal

`_parse_strict_int` and `_parse_amount` of `dw_pydantic.py`, over every text that Python has.
The pattern takes the digits of any script after the first one, and so does `int`.
-/

namespace DeathRoll

open Text

/-- What a validator may be given. -/
inductive PyObject where
  | bool (value : Bool)
  | int (value : ℤ)
  | str (text : PyStr)
  | other (typeName : String)
deriving DecidableEq

/-- The `ValueError` of a validator or of `int`. -/
inductive ValueError where
  | message (text : String)
  | ofInt (error : IntError)
deriving DecidableEq

/-- `^(?:0|[1-9]\d*)$`. -/
def strictIntRe : Regex CodePoint :=
  .seq .atStart
    (.seq (.alt (.set fun c => c.val = 0x30)
        (.seq (.set fun c => IsLeadingDigit c) (.star (.set isDecimal))))
      (.atEnd newline))

/-- `_parse_strict_int`. -/
def parseStrictInt (value : PyObject) (fieldName : String) : Except ValueError ℤ :=
  match value with
  | .bool _ => .error (.message (fieldName ++ " must be a number, not a boolean"))
  | .int value => .ok value
  | .other typeName =>
      .error (.message (fieldName ++ " must be a string or int, got " ++ typeName))
  | .str text =>
      let stripped := strip text
      if ¬ strictIntRe.matchesFront stripped then
        .error (.message (fieldName ++ " must be a non-negative integer with no separators " ++
          "or suffixes (examples: 100, 25000, 500000)"))
      else (pyInt stripped).mapError .ofInt

/-- `_ModalBase._parse_amount`. -/
def parseAmount (value : PyObject) : Except ValueError ℤ := do
  let parsed ← parseStrictInt value "amount"
  if parsed ≤ 0 then .error (.message "amount must be strictly positive")
  else if parsed > 10 ^ 18 then .error (.message "amount too large")
  else return parsed

/-! ## The grammar -/

/-- The documented grammar: a numeral between white space, for an amount in range. -/
structure AmountText (text : PyStr) (amount : ℤ) : Prop where
  numeral : IsNumeral (strip text)
  value : numeralValue (strip text) = amount
  range : 1 ≤ amount ∧ amount ≤ 10 ^ 18

/-- A numeral for an amount in range, with digits of other scripts behind its first one. -/
structure ForeignAmount (text : PyStr) : Prop where
  numeral : IsDecimalNumeral (strip text)
  foreign : ∃ c ∈ strip text, ¬ IsAsciiDigit c
  value : numeralValue (strip text) ≤ 10 ^ 18

/-- The parser treats two texts as the grammar says: each is accepted with its value or not
at all, what is printed for an accepted value is accepted for it, and two texts that are
accepted for one value differ in white space only. -/
structure FollowsGrammar (text other : PyStr) : Prop where
  accepts : ∀ amount, parseAmount (.str text) = .ok amount ↔ AmountText text amount
  acceptsOther : ∀ amount, parseAmount (.str other) = .ok amount ↔ AmountText other amount
  reparses : ∀ amount, parseAmount (.str text) = .ok amount →
    parseAmount (.str (strOfInt amount)) = .ok amount
  reparsesOther : ∀ amount, parseAmount (.str other) = .ok amount →
    parseAmount (.str (strOfInt amount)) = .ok amount
  oneNumeral : ∀ amount, parseAmount (.str text) = .ok amount →
    parseAmount (.str other) = .ok amount → strip text = strip other

/-! ## What is accepted -/

variable {text : PyStr} {amount : ℤ}

/-- A stripped text matches when it is `0` or a numeral; the last newline that `$` would pass
over is white space. -/
theorem strictIntRe_strip :
    strictIntRe.matchesFront (strip text) ↔
      (∃ c : CodePoint, c.val = 0x30 ∧ strip text = [c]) ∨ IsDecimalNumeral (strip text) := by
  rw [Regex.matchesFront_iff]
  simp only [strictIntRe, Regex.matches_seq, Regex.matches_alt, Regex.matches_set,
    Regex.matches_star_set, Regex.matches_atStart, Regex.matches_atEnd, decide_eq_true_eq]
  constructor
  · rintro ⟨_, rest, htext, _, _, rfl, ⟨rfl, -⟩, body, _, rfl, hbody, rfl, hend⟩
    have hrest : rest = [] := by
      rcases hend with rfl | rfl
      · rfl
      · exact absurd (not_isSpace_of_strip_eq htext) (by decide)
    subst hrest
    simp only [List.nil_append, List.append_nil] at htext
    rcases hbody with ⟨c, rfl, hc⟩ | ⟨_, digits, rfl, ⟨c, rfl, hc⟩, hdigits⟩
    · exact .inl ⟨c, hc, htext⟩
    · refine .inr ⟨⟨c, digits, htext, hc⟩, fun d hd => ?_⟩
      rw [htext] at hd
      rcases List.mem_cons.mp hd with rfl | hd
      · exact hc.isAsciiDigit.isDecimal
      · exact hdigits d hd
  · rintro (⟨c, hc, htext⟩ | hnumeral)
    · exact ⟨[c], [], htext, [], [c], rfl, ⟨rfl, trivial⟩, [c], [], rfl,
        .inl ⟨c, rfl, hc⟩, rfl, .inl rfl⟩
    · obtain ⟨c, digits, htext, hc⟩ := hnumeral.leading
      have hdigits : ∀ d ∈ digits, isDecimal d := fun d hd =>
        hnumeral.decimal d (htext ▸ List.mem_cons_of_mem c hd)
      exact ⟨c :: digits, [], by rw [htext, List.append_nil], [], c :: digits, rfl, ⟨rfl, trivial⟩,
        c :: digits, [], (List.append_nil _).symm,
        .inr ⟨[c], digits, rfl, ⟨c, rfl, hc⟩, hdigits⟩, rfl, .inl rfl⟩

theorem numeralValue_of_length_one {c : CodePoint} (hc : c.val = 0x30) : numeralValue [c] = 0 := by
  have hvalue : digitValue c = 0 := by
    rw [digitValue_of_ascii ⟨by omega, by omega⟩, hc]
  rw [numeralValue, List.map_singleton, List.reverse_singleton, Nat.ofDigits_singleton, hvalue]

theorem parseAmount_of_error {value : PyObject} {e : ValueError}
    (hstrict : parseStrictInt value "amount" = .error e) : parseAmount value ≠ .ok amount := by
  rw [parseAmount, hstrict]
  intro hok
  cases hok

theorem parseAmount_of_ok {value : PyObject} {parsed : ℤ}
    (hstrict : parseStrictInt value "amount" = .ok parsed) :
    parseAmount value = .ok amount ↔ parsed = amount ∧ 0 < parsed ∧ parsed ≤ 10 ^ 18 := by
  have hparse : parseAmount value =
      if parsed ≤ 0 then .error (.message "amount must be strictly positive")
      else if parsed > 10 ^ 18 then .error (.message "amount too large")
      else .ok parsed := by
    rw [parseAmount, hstrict]
    rfl
  rw [hparse]
  split_ifs with hpos hmax
  · exact iff_of_false not_false fun h => hpos.not_gt h.2.1
  · exact iff_of_false not_false fun h => h.2.2.not_gt hmax
  · rw [Except.ok.injEq]
    exact ⟨fun heq => ⟨heq, not_le.mp hpos, not_lt.mp hmax⟩, fun h => h.1⟩

theorem parseStrictInt_of_matches (fieldName : String)
    (hmatch : strictIntRe.matchesFront (strip text)) :
    parseStrictInt (.str text) fieldName = (pyInt (strip text)).mapError .ofInt := by
  simp only [parseStrictInt, hmatch, not_true, if_false]

/-- The parser accepts the numerals of the amounts in range, whatever their digits. -/
theorem parseAmount_eq_ok :
    parseAmount (.str text) = .ok amount ↔ IsDecimalNumeral (strip text) ∧
      (numeralValue (strip text) : ℤ) = amount ∧ amount ≤ 10 ^ 18 := by
  by_cases hmatch : strictIntRe.matchesFront (strip text)
  · have hstrict := parseStrictInt_of_matches "amount" hmatch
    rcases strictIntRe_strip.mp hmatch with ⟨c, hc, htext⟩ | hnumeral
    · have hzero : pyInt (strip text) = .ok 0 := by
        have hdecimal : ∀ d ∈ [c], isDecimal d := by
          simpa using IsAsciiDigit.isDecimal ⟨by omega, by omega⟩
        rw [htext, pyInt_of_decimal (List.cons_ne_nil c []) hdecimal, numeralValue_of_length_one hc]
        rfl
      rw [hzero] at hstrict
      refine iff_of_false (fun hparses => ?_) ?_
      · exact absurd ((parseAmount_of_ok hstrict).mp hparses).2.1 (lt_irrefl 0)
      · rintro ⟨hnumeral, -, -⟩
        obtain ⟨d, rest, heq, hd⟩ := hnumeral.leading
        rw [htext, List.cons.injEq] at heq
        have hlow := hd.1
        rw [← heq.1] at hlow
        omega
    · have hpos := hnumeral.value_pos
      rw [pyInt_of_decimal hnumeral.ne_nil hnumeral.decimal] at hstrict
      split_ifs at hstrict with hlong
      · refine iff_of_false (parseAmount_of_error hstrict) ?_
        rintro ⟨-, hvalue, hmax⟩
        have hlength := hnumeral.length_le 19 (by omega)
        unfold maxStrDigits at hlong
        omega
      · rw [parseAmount_of_ok hstrict]
        constructor
        · rintro ⟨rfl, -, hmax⟩
          exact ⟨hnumeral, rfl, hmax⟩
        · rintro ⟨-, rfl, hmax⟩
          exact ⟨rfl, by omega, hmax⟩
  · have hstrict : parseStrictInt (.str text) "amount" = .error (.message ("amount" ++
        " must be a non-negative integer with no separators " ++
          "or suffixes (examples: 100, 25000, 500000)")) := by
      simp only [parseStrictInt, hmatch, if_true, Bool.false_eq_true, not_false_iff]
    exact iff_of_false (parseAmount_of_error hstrict) fun h =>
      hmatch (strictIntRe_strip.mpr (.inr h.1))

theorem AmountText.parses (hamount : AmountText text amount) :
    parseAmount (.str text) = .ok amount :=
  parseAmount_eq_ok.mpr ⟨hamount.numeral.isDecimalNumeral, hamount.value, hamount.range.2⟩

/-- Short of the grammar, an accepted text has digits of another script. -/
theorem amountText_of_parses (hparses : parseAmount (.str text) = .ok amount)
    (hforeign : ¬ ForeignAmount text) : AmountText text amount := by
  obtain ⟨hnumeral, hvalue, hmax⟩ := parseAmount_eq_ok.mp hparses
  have hpos := hnumeral.value_pos
  refine ⟨⟨hnumeral.leading, fun c hc => ?_⟩, hvalue, by omega, hmax⟩
  by_contra hascii
  exact hforeign ⟨hnumeral, ⟨c, hc, hascii⟩, by omega⟩

theorem ForeignAmount.parses (hforeign : ForeignAmount text) :
    parseAmount (.str text) = .ok (numeralValue (strip text)) := by
  have hvalue := hforeign.value
  exact parseAmount_eq_ok.mpr ⟨hforeign.numeral, rfl, by exact_mod_cast hvalue⟩

theorem ForeignAmount.not_amountText (hforeign : ForeignAmount text) :
    ¬ AmountText text amount := by
  obtain ⟨c, hc, hascii⟩ := hforeign.foreign
  exact fun hamount => hascii (hamount.numeral.ascii c hc)

/-- What is printed for an amount in range is in the grammar. -/
theorem amountText_strOfInt (hpos : 1 ≤ amount) (hmax : amount ≤ 10 ^ 18) :
    AmountText (strOfInt amount) amount := by
  have hnat : 0 < amount.natAbs := by omega
  have hprinted : strip (strOfInt amount) = strOfNat amount.natAbs := by
    rw [strOfInt, if_neg (by omega)]
    refine strip_of_not_isSpace fun c hc => not_isSpace_of_isDecimal ?_
    exact ((isNumeral_strOfNat hnat).ascii c hc).isDecimal
  refine ⟨?_, ?_, hpos, hmax⟩
  · rw [hprinted]
    exact isNumeral_strOfNat hnat
  · rw [hprinted, numeralValue_strOfNat hnat]
    omega

/-- Two texts of the grammar for one amount have the same numeral. -/
theorem AmountText.strip_eq {other : PyStr} (hamount : AmountText text amount)
    (hother : AmountText other amount) : strip text = strip other := by
  have hvalues : numeralValue (strip text) = numeralValue (strip other) := by
    have hvalue := hamount.value
    have hvalue' := hother.value
    omega
  rw [← hamount.numeral.strOfNat_value, hvalues, hother.numeral.strOfNat_value]

/-- What is printed for an accepted amount is accepted for it. -/
theorem parses_printed (hparses : parseAmount (.str text) = .ok amount) :
    parseAmount (.str (strOfInt amount)) = .ok amount := by
  obtain ⟨hnumeral, hvalue, hmax⟩ := parseAmount_eq_ok.mp hparses
  have hpos := hnumeral.value_pos
  exact (amountText_strOfInt (by omega) hmax).parses

/-- The parser accepts the grammar exactly, whatever is accepted can be printed and parsed
again, and an amount has one numeral, save for amounts with digits of other scripts. -/
theorem follows_grammar_iff_not_foreign (text other : PyStr) :
    FollowsGrammar text other ↔ ¬ ForeignAmount text ∧ ¬ ForeignAmount other := by
  constructor
  · intro hgrammar
    constructor
    · intro hforeign
      exact hforeign.not_amountText ((hgrammar.accepts _).mp hforeign.parses)
    · intro hforeign
      exact hforeign.not_amountText ((hgrammar.acceptsOther _).mp hforeign.parses)
  · rintro ⟨hforeign, hforeign'⟩
    constructor
    · intro amount
      exact ⟨fun hparses => amountText_of_parses hparses hforeign, AmountText.parses⟩
    · intro amount
      exact ⟨fun hparses => amountText_of_parses hparses hforeign', AmountText.parses⟩
    · intro amount hparses
      exact parses_printed hparses
    · intro amount hparses
      exact parses_printed hparses
    · intro amount hparses hparses'
      exact (amountText_of_parses hparses hforeign).strip_eq
        (amountText_of_parses hparses' hforeign')

/-- `1` and an Arabic-Indic two: accepted for twelve, as `12` is, and no text of the
grammar. -/
theorem foreign_twelve :
    let text : PyStr := [0x31, 0x662]
    parseAmount (.str text) = .ok 12 ∧ parseAmount (.str [0x31, 0x32]) = .ok 12 ∧
      strip text ≠ strip [0x31, 0x32] ∧
      ¬ (∀ amount, parseAmount (.str text) = .ok amount ↔ AmountText text amount) ∧
      ¬ FollowsGrammar text [0x31, 0x32] := by
  intro text
  have hparses : parseAmount (.str text) = .ok 12 := by decide +kernel
  have hgrammar : ¬ (∀ amount, parseAmount (.str text) = .ok amount ↔ AmountText text amount) := by
    intro hgrammar
    have hascii := ((hgrammar 12).mp hparses).numeral.ascii 0x662 (by decide +kernel)
    exact absurd hascii (by decide)
  exact ⟨hparses, by decide +kernel, by decide +kernel, hgrammar,
    fun hfollows => hgrammar hfollows.accepts⟩

end DeathRoll
