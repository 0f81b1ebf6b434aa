import DecimalLisp.Decimal.Notation
import DecimalLisp.Proofs.Decimal.Numeral
import DecimalLisp.Proofs.Decimal.Rounding
import DecimalLisp.Text.Blank

/-!
# Plain texts as numerals

Digits at their places are a numeral without an exponent, written with the ten plain digits. The
zeros that are left out or put in do not change the value, so the numeral means a number of the
same value. The plain text of a number shows the number itself in this way if its first digit
stands high enough, and otherwise the number with its last digits rounded away.
-/

namespace DecimalLisp

namespace Text

/-- The worth of a plain digit. -/
def plainWorth (c : Char) : ℕ := c.toNat - '0'.toNat

/-- A text of plain digits. -/
def PlainDigits (text : List Char) : Prop :=
  ∀ c ∈ text, c.isDigit = true

theorem plainDigits_append {text text' : List Char} :
    PlainDigits (text ++ text') ↔ PlainDigits text ∧ PlainDigits text' :=
  List.forall_mem_append

/-- Zeros are plain digits. -/
theorem plainDigits_zeros (k : ℕ) : PlainDigits (List.replicate k '0') := by
  intro c hc
  rw [(List.mem_replicate.mp hc).2]
  decide

/-- The plain digits follow one another. -/
theorem toNat_of_isDigit {c : Char} (h : c.isDigit = true) :
    0x30 ≤ c.toNat ∧ c.toNat < 0x30 + 10 := by
  have range : 48 ≤ c.toNat ∧ c.toNat ≤ 57 := by
    simpa [Char.isDigit, Char.le_def, UInt32.le_iff_toNat_le] using h
  omega

/-- A plain digit is no blank. -/
theorem isBlank_of_isDigit {c : Char} (h : c.isDigit = true) : isBlank c = false := by
  have range := toNat_of_isDigit h
  rw [isBlank, List.any_eq_false]
  intro range hr
  simp only [blankRanges, List.mem_cons, List.not_mem_nil, or_false] at hr
  rcases hr with rfl | rfl | rfl | rfl | rfl | rfl | rfl | rfl | rfl | rfl <;>
    simp only [Bool.and_eq_true, decide_eq_true_eq] <;> omega

/-- A plain digit is a digit. -/
theorem digitValue?_of_isDigit {c : Char} (h : c.isDigit = true) :
    digitValue? c = some (plainWorth c) := by
  have inside : (decide (0x30 ≤ c.toNat) && decide (c.toNat < 0x30 + 10)) = true := by
    simpa only [Bool.and_eq_true, decide_eq_true_eq] using toNat_of_isDigit h
  have first : digitZeros.find? (fun start => start ≤ c.toNat && c.toNat < start + 10) =
      some 0x30 := List.find?_cons_of_pos inside
  rw [digitValue?, first]
  rfl

/-- Plain digits are digits. -/
theorem worth_plain {text : List Char} (h : PlainDigits text) :
    Worth text (text.map plainWorth) := by
  rw [Worth, List.map_map]
  exact List.map_congr_left fun c hc => digitValue?_of_isDigit (h c hc)

/-- Plain digits are read as usual. -/
theorem ofDigits_plain (text : List Char) :
    ofDigits (text.map plainWorth) = Nat.ofDigitChars 10 text 0 := by
  rw [ofDigits, List.foldl_map, Nat.ofDigitChars_eq_foldl]
  rfl

end Text

namespace Decimal

open Text Numeral

variable {x : Decimal}

theorem plainDigits_digits (x : Decimal) : PlainDigits x.digits :=
  fun _ hc => Nat.isDigit_of_mem_toDigits (by omega) (by omega) hc

/-- The digits are the significant ones and zeros after them. -/
theorem significant_append (digits : List Char) :
    significant digits ++ List.replicate (digits.length - (significant digits).length) '0' =
      digits := by
  have parts := congrArg List.reverse
    (List.takeWhile_append_dropWhile (p := (· == '0')) (l := digits.reverse))
  rw [List.reverse_append, List.reverse_reverse] at parts
  have zeros : (digits.reverse.takeWhile (· == '0')).reverse =
      List.replicate (digits.length - (significant digits).length) '0' := by
    refine List.eq_replicate_iff.mpr ⟨?_, fun c hc => ?_⟩
    · have lengths := congrArg List.length parts
      rw [List.length_append] at lengths
      unfold significant
      omega
    · exact beq_iff_eq.mp
        (List.all_eq_true.mp List.all_takeWhile c (List.mem_reverse.mp hc))
  rw [← zeros]
  exact parts

/-- Digits with a point are all the digits, with zeros before them, split at the point. -/
theorem pointed_eq (digits : List Char) {places : ℕ} (h : places ≠ 0) :
    ∃ front back, pointed digits places = front ++ '.' :: back ∧ front ≠ [] ∧
      back.length = places ∧
      front ++ back = List.replicate (places + 1 - digits.length) '0' ++ digits := by
  unfold pointed
  rw [if_neg h]
  dsimp only
  generalize hf : List.replicate (places + 1 - digits.length) '0' ++ digits = filled
  have long : places + 1 ≤ filled.length := by
    rw [← hf, List.length_append, List.length_replicate]
    omega
  refine ⟨_, _, rfl, ?_, ?_, List.take_append_drop _ _⟩
  · intro none
    have := congrArg List.length none
    rw [List.length_take, List.length_nil] at this
    omega
  · rw [List.length_drop]
    omega

/-- The significant digits of a number, as a natural number. -/
def significand (x : Decimal) : ℕ :=
  Nat.ofDigitChars 10 (significant x.digits) 0

/-- The exponent of the last significant digit. -/
def significantExp (x : Decimal) : ℤ :=
  x.exp + (x.digits.length - (significant x.digits).length : ℕ)

/-- Leaving out the last zeros raises the exponent. -/
theorem coeff_eq_significand (x : Decimal) :
    x.coeff = x.significand * 10 ^ (x.digits.length - (significant x.digits).length) := by
  calc x.coeff = Nat.ofDigitChars 10 x.digits 0 := Nat.ofDigitChars_ten_toDigits.symm
    _ = _ := by
      nth_rewrite 1 [← significant_append x.digits]
      rw [Nat.ofDigitChars_append, Nat.ofDigitChars_replicate_zero, significand, Nat.mul_comm]

/-- A number is its significant digits and their exponent. -/
theorem toRat_eq_significand (x : Decimal) :
    x.toRat = x.sign * (x.significand * 10 ^ x.significantExp) := by
  rw [toRat, significantExp, ← ten_zpow_mul]
  nth_rewrite 1 [coeff_eq_significand]
  push_cast
  ring

/-- Some digit of a number other than zero is significant. -/
theorem significant_ne_nil (h : x.coeff ≠ 0) : significant x.digits ≠ [] := by
  intro none
  refine h ?_
  rw [coeff_eq_significand, significand, none]
  exact Nat.zero_mul _

theorem plainDigits_significant (x : Decimal) : PlainDigits (significant x.digits) := by
  intro c hc
  refine plainDigits_digits x c ?_
  rw [← significant_append x.digits]
  exact List.mem_append_left _ hc

theorem writesSign_signText (x : Decimal) : WritesSign x.signText x.negative := by
  unfold signText
  cases x.negative
  · exact .none
  · exact .minus

/-! ## Digits at their places -/

/-- Without a point zeros fill the places up to it. -/
theorem positional_of_nonneg (whole : 0 ≤ x.significantExp) :
    x.positional = x.signText ++
      (significant x.digits ++ List.replicate x.significantExp.toNat '0') :=
  congrArg _ (if_pos whole)

theorem positional_of_neg (below : x.significantExp < 0) :
    x.positional = x.signText ++ pointed (significant x.digits) (-x.significantExp).toNat :=
  congrArg _ (if_neg (not_le.mpr below))

/-- Digits of a positional text in the place of the significant ones. -/
structure Shows (x : Decimal) (whole fraction : List Char) : Prop where
  /-- The digits before the point. -/
  plainWhole : PlainDigits whole
  /-- The digits after it. -/
  plainFraction : PlainDigits fraction
  /-- There is a digit before the point. -/
  nonempty : whole ≠ []
  /-- All digits together are the significant ones, shifted to the point. -/
  digits : Nat.ofDigitChars 10 (whole ++ fraction) 0 =
    x.significand * 10 ^ x.significantExp.toNat
  /-- The digits after the point count the exponent. -/
  places : (fraction.length : ℤ) = -min x.significantExp 0

/-- The positional text of a number other than zero is its sign, digits, and perhaps a point with
more digits. -/
theorem positional_eq (h : x.coeff ≠ 0) :
    ∃ whole fraction, x.Shows whole fraction ∧
      (x.positional = x.signText ++ whole ∧ fraction = [] ∨
        x.positional = x.signText ++ (whole ++ '.' :: fraction)) := by
  have plain := plainDigits_significant x
  by_cases whole : 0 ≤ x.significantExp
  · refine ⟨_, [], ⟨?_, nofun, ?_, ?_, ?_⟩, Or.inl ⟨positional_of_nonneg whole, rfl⟩⟩
    · exact plainDigits_append.mpr ⟨plain, plainDigits_zeros _⟩
    · exact List.append_ne_nil_of_left_ne_nil (significant_ne_nil h) _
    · rw [List.append_nil, Nat.ofDigitChars_append, Nat.ofDigitChars_replicate_zero, Nat.mul_comm]
      rfl
    · rw [min_eq_right whole]
      rfl
  · have point : (-x.significantExp).toNat ≠ 0 := by omega
    obtain ⟨front, back, text, present, length, filled⟩ := pointed_eq (significant x.digits) point
    obtain ⟨plainFront, plainBack⟩ : PlainDigits front ∧ PlainDigits back := by
      rw [← plainDigits_append, filled, plainDigits_append]
      exact ⟨plainDigits_zeros _, plain⟩
    refine ⟨front, back, ⟨plainFront, plainBack, present, ?_, ?_⟩, Or.inr ?_⟩
    · have shift : x.significantExp.toNat = 0 := by omega
      rw [filled, Nat.ofDigitChars_append, Nat.ofDigitChars_replicate_zero, Nat.mul_zero, shift,
        Nat.pow_zero, Nat.mul_one]
      rfl
    · omega
    · rw [positional_of_neg (lt_of_not_ge whole), text]

/-- The number that a positional text means: no exponent is written, so the last digit is counted
by none or a negative one. -/
def plainNumber (x : Decimal) : Decimal :=
  ⟨x.negative, x.significand * 10 ^ x.significantExp.toNat, min x.significantExp 0⟩

/-- The positional text means a number of the same value. -/
theorem toRat_plainNumber (x : Decimal) : x.plainNumber.toRat = x.toRat := by
  have shift : min x.significantExp 0 + (x.significantExp.toNat : ℤ) = x.significantExp := by omega
  rw [toRat_eq_significand x, ← shift, ← ten_zpow_mul]
  change x.sign * (((x.significand * 10 ^ x.significantExp.toNat : ℕ) : ℚ) * _) = _
  push_cast
  rw [mul_assoc]
  rfl

/-- No digit is written below the last one of the number. -/
theorem min_exp_le_plainNumber (x : Decimal) : min x.exp 0 ≤ x.plainNumber.exp := by
  change _ ≤ min x.significantExp 0
  unfold significantExp
  omega

/-- The positional text of a number other than zero is a numeral of the grammar. -/
theorem written_positional (h : x.coeff ≠ 0) :
    ∃ n : Numeral, Written x.positional n ∧ n.number = x.plainNumber := by
  obtain ⟨whole, fraction, shows, text⟩ := positional_eq h
  have sign := writesSign_signText x
  have worth := worth_plain shows.plainWhole
  have worth' := worth_plain shows.plainFraction
  have present : whole.map plainWorth ≠ [] := by
    rw [ne_eq, List.map_eq_nil_iff]
    exact shows.nonempty
  refine ⟨⟨x.negative, whole.map plainWorth, fraction.map plainWorth, 0⟩, ?_, ?_⟩
  · rcases text with ⟨text, rfl⟩ | text
    · have written := Written.parts sign (.whole worth present) .none
      rwa [List.append_nil, ← text] at written
    · have written := Written.parts sign (.pointed worth present worth') .none
      rwa [List.append_nil, ← text] at written
  · have places := shows.places
    rw [number, ← List.map_append, ofDigits_plain, shows.digits, List.length_map, plainNumber]
    congr 1
    change 0 - (fraction.length : ℤ) = _
    omega

/-- A sign is a minus or nothing. -/
theorem mem_signText {c : Char} (h : c ∈ x.signText) : c = '-' := by
  unfold signText at h
  split at h
  · exact List.mem_singleton.mp h
  · exact absurd h List.not_mem_nil

/-! ## The number that is shown -/

/-- The numbers whose first digit stands high enough for all digits to be shown, and the zeros. -/
def Printed (x : Decimal) : Prop :=
  x.coeff = 0 ∨ leastPrinted ≤ x.adjusted

/-- A zero is shown as a zero. -/
theorem coeff_shown_of_zero (h : x.coeff = 0) : x.shown.coeff = 0 := by
  unfold shown
  dsimp only
  rw [h, zero_roundQuotient]

/-- A number whose first digit stands high enough is shown as it is. -/
theorem shown_of_le (high : leastPrinted ≤ x.adjusted) : x.shown = x := by
  have none : (leastPrinted - x.adjusted).toNat = 0 := by omega
  unfold shown
  dsimp only
  rw [none, roundQuotient_zero]
  exact congrArg _ (Int.add_zero x.exp)

/-- The text of a number whose first digit stands high enough has all its digits. -/
theorem plainText_of_le (h : x.coeff ≠ 0) (high : leastPrinted ≤ x.adjusted) :
    x.plainText = x.positional := by
  rw [plainText, shown_of_le high, if_neg h, if_neg h]

/-- A plain text is a zero, which may have a sign before it, or digits at their places. -/
theorem plainText_cases (x : Decimal) :
    x.plainText = ['0'] ∨ x.plainText = x.signText ++ ['0'] ∨
      x.shown.coeff ≠ 0 ∧ x.plainText = x.shown.positional := by
  unfold plainText
  split
  · exact .inl rfl
  · split
    · exact .inr (.inl rfl)
    · next some => exact .inr (.inr ⟨some, rfl⟩)

/-- A positional text has digits, a minus and a point, and nothing else. -/
theorem mem_positional (h : x.coeff ≠ 0) {c : Char} (mem : c ∈ x.positional) :
    c.isDigit = true ∨ c = '-' ∨ c = '.' := by
  obtain ⟨whole, fraction, shows, text⟩ := positional_eq h
  rcases text with ⟨text, -⟩ | text <;> rw [text] at mem
  · rcases List.mem_append.mp mem with mem | mem
    · exact .inr (.inl (mem_signText mem))
    · exact .inl (shows.plainWhole c mem)
  · rcases List.mem_append.mp mem with mem | mem
    · exact .inr (.inl (mem_signText mem))
    · rcases List.mem_append.mp mem with mem | mem
      · exact .inl (shows.plainWhole c mem)
      · rcases List.mem_cons.mp mem with mem | mem
        · exact .inr (.inr mem)
        · exact .inl (shows.plainFraction c mem)

theorem positional_ne_nil (h : x.coeff ≠ 0) : x.positional ≠ [] := by
  obtain ⟨whole, fraction, shows, text⟩ := positional_eq h
  rcases text with ⟨text, -⟩ | text <;> rw [text]
  · exact List.append_ne_nil_of_right_ne_nil _ shows.nonempty
  · refine List.append_ne_nil_of_right_ne_nil _ ?_
    exact List.append_ne_nil_of_left_ne_nil shows.nonempty _

/-- A plain text has digits, a minus and a point, and nothing else. -/
theorem mem_plainText {c : Char} (h : c ∈ x.plainText) : c.isDigit = true ∨ c = '-' ∨ c = '.' := by
  rcases x.plainText_cases with text | text | ⟨some, text⟩ <;> rw [text] at h
  · rw [List.mem_singleton.mp h]
    exact .inl (by decide)
  · rcases List.mem_append.mp h with h | h
    · exact .inr (.inl (mem_signText h))
    · rw [List.mem_singleton.mp h]
      exact .inl (by decide)
  · exact mem_positional some h

theorem plainText_ne_nil (x : Decimal) : x.plainText ≠ [] := by
  rcases x.plainText_cases with text | text | ⟨some, text⟩ <;> rw [text]
  · exact List.cons_ne_nil _ _
  · exact List.append_ne_nil_of_right_ne_nil _ (List.cons_ne_nil _ _)
  · exact positional_ne_nil some

end Decimal

end DecimalLisp
