import DecimalLisp.Proofs.Atom
import DecimalLisp.Proofs.Decimal.Notation
import DecimalLisp.Value.Text

/-!
# Exact texts

The exact text of a number is a numeral that means just this number: its sign, its digits and its
exponent. That is so for the positional layout, in which zeros may stand before the digits, as for
the scientific one, in which the exponent is written out. So no two numbers share an exact text, and
the reader gives back every number whose text it does not refuse.
-/

namespace DecimalLisp

namespace Decimal

open Text Numeral

variable {x : Decimal}

/-- As many digits are written as are counted. -/
theorem length_digits (x : Decimal) : x.digits.length = digitCount x.coeff := by
  have present : 0 < x.digits.length := Nat.length_toDigits_pos
  have count := one_le_digitCount x.coeff
  apply le_antisymm
  · exact (Nat.length_toDigits_le_iff (by omega) count).mpr (lt_pow_digitCount x.coeff)
  · exact (digitCount_le_iff present).mpr
      ((Nat.length_toDigits_le_iff (by omega) present).mp le_rfl)

/-! ## Parts of a text -/

/-- Plain digits without a point. -/
theorem writesDigits_whole {text : List Char} (plain : PlainDigits text) (present : text ≠ []) :
    WritesDigits text (text.map plainWorth) [] :=
  .whole (worth_plain plain) (by rwa [ne_eq, List.map_eq_nil_iff])

/-- Plain digits with a point among them. -/
theorem writesDigits_pointed (front back : List Char) (plain : PlainDigits (front ++ back))
    (present : front ≠ []) :
    WritesDigits (front ++ '.' :: back) (front.map plainWorth) (back.map plainWorth) := by
  obtain ⟨before, after⟩ := plainDigits_append.mp plain
  exact .pointed (worth_plain before) (by rwa [ne_eq, List.map_eq_nil_iff]) (worth_plain after)

/-- An exponent that is written out, with its sign. -/
theorem writesExponent_signed (e : ℤ) :
    WritesExponent ('E' :: (if e < 0 then '-' else '+') :: Nat.toDigits 10 e.natAbs) e := by
  have worth : Worth (Nat.toDigits 10 e.natAbs) ((Nat.toDigits 10 e.natAbs).map plainWorth) :=
    worth_plain fun _ hc => Nat.isDigit_of_mem_toDigits (by omega) (by omega) hc
  have present : (Nat.toDigits 10 e.natAbs).map plainWorth ≠ [] := by
    rw [ne_eq, List.map_eq_nil_iff]
    exact Nat.toDigits_ne_nil
  have value : ofDigits ((Nat.toDigits 10 e.natAbs).map plainWorth) = e.natAbs := by
    rw [ofDigits_plain, Nat.ofDigitChars_ten_toDigits]
  by_cases below : e < 0
  · have written := WritesExponent.written (.inr rfl) .minus worth present
    have exponent : (if true = true then -(e.natAbs : ℤ) else e.natAbs) = e := by
      rw [if_pos rfl]
      omega
    rw [value, exponent] at written
    rwa [if_pos below]
  · have written := WritesExponent.written (.inr rfl) .plus worth present
    have exponent : (if false = true then -(e.natAbs : ℤ) else e.natAbs) = e := by
      rw [if_neg Bool.false_ne_true]
      omega
    rw [value, exponent] at written
    rwa [if_neg below]

/-- Digits of the coefficient around a point, and an exponent, write a number if the exponent is
that of its last digit once the digits after the point are counted. -/
theorem written_of_parts {text tail : List Char} (front back : List Char) {e : ℤ}
    (digits : WritesDigits text (front.map plainWorth) (back.map plainWorth))
    (exponent : WritesExponent tail e) (coeff : Nat.ofDigitChars 10 (front ++ back) 0 = x.coeff)
    (exp : e - back.length = x.exp) :
    ∃ n : Numeral, Written (x.signText ++ (text ++ tail)) n ∧ n.number = x := by
  refine ⟨_, .parts (writesSign_signText x) digits exponent, ?_⟩
  rw [number, ← List.map_append, ofDigits_plain, coeff, List.length_map, exp]

/-! ## The two layouts -/

/-- In the positional layout the digits after the point show the exponent. -/
theorem written_pointed (h : x.exp ≤ 0) :
    ∃ n : Numeral, Written (x.signText ++ pointed x.digits (-x.exp).toNat) n ∧ n.number = x := by
  have coeff : Nat.ofDigitChars 10 x.digits 0 = x.coeff := Nat.ofDigitChars_ten_toDigits
  by_cases none : (-x.exp).toNat = 0
  · have exp : (0 : ℤ) - ([] : List Char).length = x.exp := by
      rw [List.length_nil]
      omega
    have digits := writesDigits_whole (plainDigits_digits x) Nat.toDigits_ne_nil
    have written := written_of_parts x.digits [] digits .none (by rwa [List.append_nil]) exp
    rw [List.append_nil] at written
    rwa [none, pointed, if_pos rfl]
  · obtain ⟨front, back, text, present, length, filled⟩ := pointed_eq x.digits none
    have plain : PlainDigits (front ++ back) := by
      rw [filled, plainDigits_append]
      exact ⟨plainDigits_zeros _, plainDigits_digits x⟩
    have coeff' : Nat.ofDigitChars 10 (front ++ back) 0 = x.coeff := by
      rw [filled, Nat.ofDigitChars_append, Nat.ofDigitChars_replicate_zero, Nat.mul_zero, coeff]
    have digits := writesDigits_pointed front back plain present
    have written := written_of_parts front back digits .none coeff'
      (show 0 - (back.length : ℤ) = x.exp by omega)
    rwa [List.append_nil, ← text] at written

/-- In the scientific layout the exponent is that of the first digit. -/
theorem written_scientific (x : Decimal) :
    ∃ n : Numeral, Written (x.signText ++ scientific x.digits x.adjusted) n ∧ n.number = x := by
  have plain := plainDigits_digits x
  have coeff : Nat.ofDigitChars 10 x.digits 0 = x.coeff := Nat.ofDigitChars_ten_toDigits
  have length := length_digits x
  have first : x.adjusted = x.exp + digitCount x.coeff - 1 := rfl
  have exponent := writesExponent_signed x.adjusted
  cases digits : x.digits with
  | nil => exact absurd digits Nat.toDigits_ne_nil
  | cons d others =>
    rw [digits] at plain coeff length
    rw [List.length_cons] at length
    have exp : x.adjusted - others.length = x.exp := by omega
    cases others with
    | nil =>
      have whole := writesDigits_whole plain (List.cons_ne_nil d [])
      have written := written_of_parts [d] [] whole exponent coeff exp
      simpa [scientific] using written
    | cons d' more =>
      have pointed := writesDigits_pointed [d] (d' :: more) plain (List.cons_ne_nil d [])
      have written := written_of_parts [d] (d' :: more) pointed exponent coeff exp
      simpa [scientific] using written

/-- The exact text of a number is a numeral that means the number. -/
theorem written_exactText (x : Decimal) :
    ∃ n : Numeral, Written x.exactText n ∧ n.number = x := by
  unfold exactText
  split
  · next positional => exact written_pointed positional.1
  · exact written_scientific x

/-- No two numbers share an exact text. -/
theorem exactText_injective : Function.Injective exactText := by
  intro x y same
  obtain ⟨n, written, meant⟩ := written_exactText x
  obtain ⟨m, written', meant'⟩ := written_exactText y
  rw [same] at written
  have alike := (ofText?_eq_some_iff.mpr written).symm.trans (ofText?_eq_some_iff.mpr written')
  rw [← meant, Option.some.inj alike, meant']

/-- The exact text of a natural number is its digits. -/
theorem exactText_ofNat (n : ℕ) : (ofNat n).exactText = (toString n).toList := by
  have digit := one_le_digitCount n
  have first : (ofNat n).adjusted = (0 : ℤ) + digitCount n - 1 := rfl
  have positional : (ofNat n).exp ≤ 0 ∧ leastPositional ≤ (ofNat n).adjusted := by
    refine ⟨le_rfl, ?_⟩
    unfold leastPositional
    omega
  rw [exactText, if_pos positional, Nat.toString_eq_repr, Nat.toList_repr]
  rfl

end Decimal

/-- A number is named by its exact text. -/
theorem Value.brief_of_number {v : Value} {x : Decimal} (h : v.number? = some x) :
    v.brief = String.ofList x.exactText := by
  cases v <;> cases h <;> rfl

namespace Reader

/-- The exact text of a number that can be carried is read as the number, unless its first digit
stands too far from the point. -/
theorem atom_exactText {x : Decimal} (carried : x.representable = true) :
    atom (String.ofList x.exactText) =
      if x.coeff ≠ 0 ∧ Decimal.maxAdjusted < x.adjusted.natAbs then
        .error (.outOfRange (String.ofList x.exactText))
      else .ok (.number x) := by
  obtain ⟨n, written, rfl⟩ := Decimal.written_exactText x
  have text : Numeral.Written (String.ofList n.number.exactText).toList n := by
    rwa [String.toList_ofList]
  have read := atom_of_written text
  rwa [carried, if_neg Bool.true_eq_false.mp] at read

/-- A natural number is read from its digits if there are not too many of them. -/
theorem atom_toString {n : ℕ} (few : n < 10 ^ 999999) :
    atom (toString n) = .ok (.number (.ofNat n)) := by
  have digit := Decimal.one_le_digitCount n
  have count := (Decimal.digitCount_le_iff (by omega)).mpr few
  have first : (Decimal.ofNat n).adjusted = (0 : ℤ) + Decimal.digitCount n - 1 := rfl
  have range : (999999 : ℤ) ≤ Decimal.maxExponent := by decide
  have near : |(Decimal.ofNat n).adjusted| ≤ 999999 := abs_le.mpr (by omega)
  have carried : (Decimal.ofNat n).representable = true :=
    representable_of_near (abs_zero.trans_le (by decide)) (near.trans range)
  have text : String.ofList (Decimal.ofNat n).exactText = toString n := by
    rw [Decimal.exactText_ofNat, String.ofList_toList]
  rw [← text, atom_exactText carried, if_neg fun far => ?_]
  rw [Int.abs_eq_natAbs] at near
  exact absurd far.2 (not_lt.mpr near)

end Reader

open Reader

/-- The text by which a number is named in messages is read as just this number, with its sign, its
digits and its exponent. That is so for every zero whose exponent is in range, and for every other
number that can be carried at all and whose first digit does not stand too far from the point. Two
numbers, whether they can be carried or not, are named alike only if they agree in all three. -/
theorem exact_text_read_back {v w : Value} {x y : Decimal} (number : v.number? = some x)
    (number' : w.number? = some y) :
    (x.coeff = 0 → |x.exp| ≤ 999999999999999999 → atom v.brief = .ok (.number x)) ∧
    (x.coeff ≠ 0 → |x.adjusted| ≤ 999999 → x.representable = true →
      atom v.brief = .ok (.number x)) ∧
    (v.brief = w.brief ↔ x = y) := by
  rw [Value.brief_of_number number, Value.brief_of_number number']
  refine ⟨fun zero near => ?_, fun _ near carried => ?_, fun same => ?_, fun same => ?_⟩
  · have carried : x.representable = true := by
      have digit : Decimal.digitCount x.coeff = 1 := by
        rw [zero]
        decide
      have first : x.adjusted = x.exp + Decimal.digitCount x.coeff - 1 := rfl
      refine representable_of_near near ?_
      rwa [first, digit, Nat.cast_one, add_sub_cancel_right]
    rw [atom_exactText carried, if_neg fun far => far.1 zero]
  · rw [atom_exactText carried, if_neg fun far => ?_]
    rw [Int.abs_eq_natAbs] at near
    exact absurd far.2 (not_lt.mpr near)
  · exact Decimal.exactText_injective (String.ofList_injective same)
  · rw [same]

/-- Two numbers at either side of the change of layout, with a needless zero each, and a zero with a
minus. -/
theorem exact_text_read_back_layouts :
    (Value.number ⟨true, 150, -8⟩).number? = some ⟨true, 150, -8⟩ ∧
      (Value.constant ⟨true, 150, -9⟩).number? = some ⟨true, 150, -9⟩ ∧
      (Value.number ⟨true, 150, -8⟩).brief = "-0.00000150" ∧
      (Value.constant ⟨true, 150, -9⟩).brief = "-1.50E-7" ∧
      (Value.number ⟨true, 0, 2⟩).brief = "-0E+2" ∧
      atom "-0.00000150" = .ok (.number ⟨true, 150, -8⟩) ∧
      atom "-1.50E-7" = .ok (.number ⟨true, 150, -9⟩) ∧
      atom "-0E+2" = .ok (.number ⟨true, 0, 2⟩) ∧
      (Value.number ⟨true, 150, -8⟩).brief ≠ (Value.constant ⟨true, 150, -9⟩).brief := by
  have number : (Value.number ⟨true, 150, -8⟩).number? = some ⟨true, 150, -8⟩ := rfl
  have number' : (Value.constant ⟨true, 150, -9⟩).number? = some ⟨true, 150, -9⟩ := rfl
  have zero : (Value.number ⟨true, 0, 2⟩).number? = some ⟨true, 0, 2⟩ := rfl
  obtain ⟨-, read, apart⟩ := exact_text_read_back number number'
  obtain ⟨-, read', -⟩ := exact_text_read_back number' number
  obtain ⟨read'', -, -⟩ := exact_text_read_back zero zero
  exact ⟨number, number', rfl, rfl, rfl, read (by decide) (by decide) (by decide),
    read' (by decide) (by decide) (by decide), read'' rfl (by decide), apart.not.mpr (by decide)⟩

end DecimalLisp
