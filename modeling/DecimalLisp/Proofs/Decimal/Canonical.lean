import DecimalLisp.Proofs.Decimal.PlainText

/-!
# Canonical decimals

A canonical decimal has a minus or no sign, a whole number without a needless zero in front and,
if it has a point, digits after it of which the last is not zero. Its value is read off its digits
by their places. Printing gives such a text, and the text has the value of the number as it is
shown. That is the value of the number itself if its first digit stands high enough; then the text
tells values apart and nothing else.
-/

namespace DecimalLisp

namespace Text

/-- The digits of a whole number: a zero, or digits of which the first is not zero. -/
inductive WholeDigits : List Char → Prop where
  | zero : WholeDigits ['0']
  | digits {c rest} : c.isDigit = true → c ≠ '0' → PlainDigits rest → WholeDigits (c :: rest)

/-- Nothing, or a point and digits of which the last is not zero. -/
inductive FractionDigits : List Char → Prop where
  | none : FractionDigits []
  | point {digits c} : PlainDigits digits → c.isDigit = true → c ≠ '0' →
      FractionDigits ('.' :: (digits ++ [c]))

/-- A minus or nothing, a whole number, and a fraction or nothing. -/
inductive CanonicalDecimal : List Char → Prop where
  | parts {sign whole fraction} : sign = [] ∨ sign = ['-'] → WholeDigits whole →
      FractionDigits fraction → CanonicalDecimal (sign ++ (whole ++ fraction))

/-- The value of digits with a point or none: those before the point count ones, and those after
it count the tenth part of one for each place. -/
def unsignedValue (text : List Char) : ℚ :=
  let whole := text.takeWhile (· ≠ '.')
  let fraction := (text.dropWhile (· ≠ '.')).drop 1
  Nat.ofDigitChars 10 whole 0 + Nat.ofDigitChars 10 fraction 0 / 10 ^ fraction.length

/-- The value of a decimal: a minus in front turns it to the other side of zero. -/
def decimalValue : List Char → ℚ
  | '-' :: rest => -unsignedValue rest
  | text => unsignedValue text

/-- Plain digits have no point among them. -/
theorem PlainDigits.ne_point {text : List Char} (h : PlainDigits text) :
    ∀ c ∈ text, decide (c ≠ '.') = true := by
  intro c hc
  refine decide_eq_true fun point => ?_
  have digit := h c hc
  rw [point] at digit
  cases digit

/-- Without a point all digits count ones. -/
theorem unsignedValue_whole {whole : List Char} (h : PlainDigits whole) :
    unsignedValue whole = Nat.ofDigitChars 10 whole 0 := by
  have before := @List.takeWhile_append_of_pos _ _ _ [] h.ne_point
  have after := @List.dropWhile_append_of_pos _ _ _ [] h.ne_point
  rw [List.append_nil, List.takeWhile_nil, List.append_nil] at before
  rw [List.append_nil, List.dropWhile_nil] at after
  unfold unsignedValue
  rw [before, after, List.drop_nil]
  dsimp only
  rw [Nat.ofDigitChars_nil, Nat.cast_zero, zero_div, add_zero]

theorem unsignedValue_zero : unsignedValue ['0'] = 0 :=
  (unsignedValue_whole (plainDigits_zeros 1)).trans Nat.cast_zero

/-- With a point all digits together count the last place. -/
theorem unsignedValue_pointed {whole : List Char} (fraction : List Char) (h : PlainDigits whole) :
    unsignedValue (whole ++ '.' :: fraction) =
      Nat.ofDigitChars 10 (whole ++ fraction) 0 / 10 ^ fraction.length := by
  have before := @List.takeWhile_append_of_pos _ _ _ ('.' :: fraction) h.ne_point
  have after := @List.dropWhile_append_of_pos _ _ _ ('.' :: fraction) h.ne_point
  have joined : Nat.ofDigitChars 10 (whole ++ fraction) 0 =
      10 ^ fraction.length * Nat.ofDigitChars 10 whole 0 + Nat.ofDigitChars 10 fraction 0 := by
    rw [Nat.ofDigitChars_append, Nat.ofDigitChars_eq_ofDigitChars_zero]
  rw [joined]
  unfold unsignedValue
  rw [before, after]
  simp only [ne_eq, not_true_eq_false, decide_false, Bool.false_eq_true, not_false_eq_true,
    List.takeWhile_cons_of_neg, List.dropWhile_cons_of_neg, List.append_nil, List.drop_one,
    List.tail_cons]
  push_cast
  field_simp

end Text

namespace Decimal

open Text

variable {x : Decimal}

/-! ## The first and the last digit -/

/-- The digits of a number other than zero do not begin with a zero. -/
theorem head?_toDigits {n : ℕ} (positive : 0 < n) : (Nat.toDigits 10 n).head? ≠ some '0' := by
  induction n using Nat.strongRecOn with
  | _ n ih =>
    rw [Nat.toDigits_eq_if (by omega)]
    split
    · rw [List.head?_cons, ne_eq, Option.some.injEq, Nat.digitChar_eq_zero]
      exact positive.ne'
    · next more =>
      have fewer := ih (n / 10) (by omega) (by omega)
      cases shorter : Nat.toDigits 10 (n / 10) with
      | nil => exact absurd shorter Nat.toDigits_ne_nil
      | cons c rest =>
        rw [shorter] at fewer
        exact fewer

/-- Significant digits begin with the first digit. -/
theorem head?_significant {digits : List Char} (present : significant digits ≠ []) :
    (significant digits).head? = digits.head? := by
  nth_rewrite 2 [← significant_append digits]
  cases kept : significant digits with
  | nil => exact absurd kept present
  | cons c rest => rfl

/-- Significant digits do not end with a zero. -/
theorem getLast?_significant (digits : List Char) : (significant digits).getLast? ≠ some '0' := by
  rw [significant, List.getLast?_reverse]
  intro last
  have kept := List.head?_dropWhile_not (· == '0') digits.reverse
  rw [last] at kept
  cases kept

/-! ## The parts of a plain text -/

/-- Digits of which the first is not zero are those of a whole number, whatever plain digits come
after them. -/
theorem wholeDigits_append {digits rest : List Char} (plain : PlainDigits digits)
    (present : digits ≠ []) (first : digits.head? ≠ some '0') (more : PlainDigits rest) :
    WholeDigits (digits ++ rest) := by
  cases digits with
  | nil => exact absurd rfl present
  | cons c digits =>
    obtain ⟨digit, others⟩ := List.forall_mem_cons.mp plain
    exact .digits digit (fun zero => first (zero ▸ rfl)) (plainDigits_append.mpr ⟨others, more⟩)

/-- Digits of which the last is not zero are those of a fraction. -/
theorem fractionDigits_point {digits : List Char} (plain : PlainDigits digits)
    (present : digits ≠ []) (last : digits.getLast? ≠ some '0') :
    FractionDigits ('.' :: digits) := by
  obtain ⟨front, c, rfl⟩ := (List.eq_nil_or_concat' digits).resolve_left present
  obtain ⟨others, digit⟩ := plainDigits_append.mp plain
  refine .point others (digit c List.mem_cons_self) fun zero => last ?_
  rw [List.getLast?_concat, zero]

/-- Digits that neither begin nor end with a zero are canonical with a point among them or before
them. -/
theorem pointed_canonical {digits : List Char} {places : ℕ} (plain : PlainDigits digits)
    (present : digits ≠ []) (first : digits.head? ≠ some '0') (last : digits.getLast? ≠ some '0')
    (h : places ≠ 0) :
    ∃ whole fraction, pointed digits places = whole ++ fraction ∧ WholeDigits whole ∧
      FractionDigits fraction := by
  obtain ⟨front, back, text, leading, length, filled⟩ := pointed_eq digits h
  have lengths := congrArg List.length filled
  rw [List.length_append, List.length_append, List.length_replicate, length] at lengths
  have nonempty : back ≠ [] := List.ne_nil_of_length_pos (by omega)
  have ends : back.getLast? = digits.getLast? := by
    have joined := congrArg List.getLast? filled
    rwa [List.getLast?_append_of_ne_nil _ nonempty,
      List.getLast?_append_of_ne_nil _ present] at joined
  obtain ⟨plainFront, plainBack⟩ : PlainDigits front ∧ PlainDigits back := by
    rw [← plainDigits_append, filled, plainDigits_append]
    exact ⟨plainDigits_zeros _, plain⟩
  refine ⟨front, '.' :: back, text, ?_, fractionDigits_point plainBack nonempty (ends ▸ last)⟩
  -- Either no zero is filled in, or the whole number is the one zero before the point.
  by_cases enough : places < digits.length
  · have none : places + 1 - digits.length = 0 := by omega
    rw [none, List.replicate_zero, List.nil_append] at filled
    have start : front.head? = digits.head? := by
      rw [← filled, List.head?_append_of_ne_nil _ leading]
    have whole := @wholeDigits_append front [] plainFront leading (start ▸ first) nofun
    rwa [List.append_nil] at whole
  · obtain ⟨c, rfl⟩ := List.length_eq_one_iff.mp (by omega : front.length = 1)
    obtain ⟨k, hk⟩ : ∃ k, places + 1 - digits.length = k + 1 := ⟨places - digits.length, by omega⟩
    rw [hk, List.replicate_succ, List.cons_append, List.cons_append, List.cons.injEq] at filled
    rw [filled.1]
    exact .zero

theorem signText_cases (x : Decimal) : x.signText = [] ∨ x.signText = ['-'] := by
  unfold signText
  cases x.negative
  · exact .inl rfl
  · exact .inr rfl

/-- The positional text of a number other than zero is canonical. -/
theorem canonical_positional (h : x.coeff ≠ 0) : CanonicalDecimal x.positional := by
  have present := significant_ne_nil h
  have plain := plainDigits_significant x
  have first : (significant x.digits).head? ≠ some '0' := by
    rw [head?_significant present]
    exact head?_toDigits (Nat.pos_of_ne_zero h)
  rcases lt_or_ge x.significantExp 0 with below | whole
  · obtain ⟨front, back, text, canonical⟩ := pointed_canonical plain present first
      (getLast?_significant _) (by omega : (-x.significantExp).toNat ≠ 0)
    rw [positional_of_neg below, text]
    exact .parts x.signText_cases canonical.1 canonical.2
  · have zeros := plainDigits_zeros x.significantExp.toNat
    rw [positional_of_nonneg whole, ← List.append_nil (_ ++ List.replicate _ _)]
    exact .parts x.signText_cases (wholeDigits_append plain present first zeros) .none

/-- The plain text of a printed number is canonical. -/
theorem canonical_plainText (printed : x.Printed) :
    CanonicalDecimal x.plainText := by
  by_cases hz : x.coeff = 0
  · rw [plainText, if_pos hz]
    exact .parts (.inl rfl) .zero .none
  · rw [plainText_of_le hz (printed.resolve_left hz)]
    exact canonical_positional hz

/-! ## The value of a plain text -/

/-- A written sign counts as the sign of the number. -/
theorem decimalValue_signText {text : List Char} (x : Decimal) (first : text.head? ≠ some '-') :
    decimalValue (x.signText ++ text) = x.sign * unsignedValue text := by
  unfold signText sign
  cases x.negative with
  | true =>
    rw [if_pos rfl, if_pos rfl, neg_one_mul]
    rfl
  | false =>
    rw [if_neg Bool.false_ne_true, if_neg Bool.false_ne_true, one_mul, List.nil_append]
    unfold decimalValue
    split
    · exact absurd rfl first
    · rfl

/-- The digits that a plain text shows have the size of the number. -/
theorem Shows.value {whole fraction : List Char} (h : x.Shows whole fraction) :
    (Nat.ofDigitChars 10 (whole ++ fraction) 0 : ℚ) / 10 ^ fraction.length =
      x.significand * 10 ^ x.significantExp := by
  have shift : x.significantExp + (fraction.length : ℤ) = (x.significantExp.toNat : ℤ) := by
    have places := h.places
    omega
  rw [h.digits, div_eq_iff (by positivity), mul_assoc, ← zpow_natCast, ← zpow_add₀ (by norm_num),
    shift, zpow_natCast]
  push_cast
  rfl

/-- Digits in front of anything else are no minus. -/
theorem head?_ne_minus {whole : List Char} (plain : PlainDigits whole) (present : whole ≠ [])
    (rest : List Char) : (whole ++ rest).head? ≠ some '-' := by
  cases whole with
  | nil => exact absurd rfl present
  | cons c whole =>
    intro minus
    have digit := plain c List.mem_cons_self
    rw [Option.some.inj minus] at digit
    cases digit

/-- The positional text of a number other than zero has its value. -/
theorem decimalValue_positional (h : x.coeff ≠ 0) : decimalValue x.positional = x.toRat := by
  obtain ⟨whole, fraction, shows, text⟩ := positional_eq h
  have value := shows.value
  have start := head?_ne_minus shows.plainWhole shows.nonempty
  rw [toRat_eq_significand, ← value]
  rcases text with ⟨text, rfl⟩ | text
  · have first := start []
    rw [List.append_nil] at first ⊢
    rw [text, decimalValue_signText x first, unsignedValue_whole shows.plainWhole]
    simp
  · rw [text, decimalValue_signText x (start _), unsignedValue_pointed _ shows.plainWhole]

/-- The plain text of a number has the value that is shown of it. -/
theorem decimalValue_plainText (x : Decimal) : decimalValue x.plainText = x.shown.toRat := by
  unfold plainText
  split
  · next zero =>
    rw [toRat_eq_zero_iff.mpr (coeff_shown_of_zero zero)]
    exact unsignedValue_zero
  · split
    · next none =>
      rw [decimalValue_signText x (by decide), unsignedValue_zero, mul_zero,
        toRat_eq_zero_iff.mpr none]
    · next some => exact decimalValue_positional some

/-- Numbers of which one is shown as a zero and the other is not have two texts. -/
theorem plainText_ne_of_shown {y : Decimal} (none : x.shown.coeff = 0) (some : y.shown.coeff ≠ 0) :
    x.plainText ≠ y.plainText := by
  intro same
  have values := congrArg decimalValue same
  rw [decimalValue_plainText, decimalValue_plainText, toRat_eq_zero_iff.mpr none] at values
  exact some (toRat_eq_zero_iff.mp values.symm)

/-- A printed number is shown with its value. -/
theorem Printed.toRat_shown (printed : x.Printed) : x.shown.toRat = x.toRat := by
  rcases printed with zero | high
  · rw [toRat_eq_zero_iff.mpr zero, toRat_eq_zero_iff.mpr (coeff_shown_of_zero zero)]
  · rw [shown_of_le high]

/-- A printed number is never a zero with a minus. -/
theorem plainText_ne_minus_zero (printed : x.Printed) :
    x.plainText ≠ ['-', '0'] := by
  intro same
  have value := x.decimalValue_plainText
  have nothing : decimalValue ['-', '0'] = 0 := neg_eq_zero.mpr unsignedValue_zero
  rw [same, nothing, printed.toRat_shown] at value
  rw [plainText, if_pos (toRat_eq_zero_iff.mp value.symm)] at same
  cases same

end Decimal

end DecimalLisp
