import DecimalLisp.Proofs.Decimal.Canonical
import DecimalLisp.Proofs.Reader

/-!
# Printed numbers

The printed text of a number is a canonical decimal of exactly its value, whatever its sign, digits
and exponent. So two numbers are printed alike just when they have one value. All this needs is that
the first digit does not stand too low. Of a number below that the last digits are rounded away
before it is printed; when none is left a zero is printed, with the sign of the number.
-/

namespace DecimalLisp

open Decimal Text Value

/-- A number is printed as a canonical decimal of its value, never as a zero with a minus, and just
the numbers of its value are printed as it is. -/
theorem print_canonical {v : Value} {x : Decimal} (number : v.number? = some x)
    (printed : x.Printed) :
    CanonicalDecimal v.print.toList ∧ v.print ≠ "-0" ∧ decimalValue v.print.toList = x.toRat ∧
      ∀ (w : Value) (y : Decimal), w.number? = some y → y.Printed →
        (v.print = w.print ↔ x.toRat = y.toRat) := by
  have shown : ∀ {w : Value} {y : Decimal}, w.number? = some y →
      w.print.toList = y.plainText := by
    intro w y hw
    rw [print_of_number hw, String.toList_ofList]
  have text := shown number
  have shows : ∀ {y : Decimal}, y.Printed → decimalValue y.plainText = y.toRat :=
    fun {y} other => y.decimalValue_plainText.trans other.toRat_shown
  refine ⟨?_, ?_, ?_, ?_⟩
  · rw [text]
    exact canonical_plainText printed
  · intro same
    rw [same] at text
    exact plainText_ne_minus_zero printed text.symm
  · rw [text, shows printed]
  · intro w y hw other
    constructor
    · intro same
      rw [← shows printed, ← shows other, ← text, ← shown hw, same]
    · intro equal
      rw [print_of_number number, print_of_number hw, plainText_congr printed equal]

/-- A needless zero is not printed, so a number is printed like the same one without it. -/
theorem print_canonical_half :
    (Value.number ⟨true, 150, -2⟩).number? = some ⟨true, 150, -2⟩ ∧
      (⟨true, 150, -2⟩ : Decimal).Printed ∧
      CanonicalDecimal (Value.number ⟨true, 150, -2⟩).print.toList ∧
      (Value.number ⟨true, 150, -2⟩).print = (Value.constant ⟨true, 15, -1⟩).print := by
  have number : (Value.number ⟨true, 150, -2⟩).number? = some ⟨true, 150, -2⟩ := rfl
  have printed : (⟨true, 150, -2⟩ : Decimal).Printed := Or.inr (by decide)
  have canonical := print_canonical number printed
  refine ⟨number, printed, canonical.1, ?_⟩
  refine (canonical.2.2.2 (.constant ⟨true, 15, -1⟩) _ rfl (Or.inr (by decide))).mpr ?_
  norm_num [toRat, sign]

/-- A number can be carried that is too small to be printed. It is printed as a zero with a minus
and loses its value. -/
theorem print_minus_zero :
    (⟨true, 1, -1000000000000000000⟩ : Decimal).representable = true ∧
    (Value.number ⟨true, 1, -1000000000000000000⟩).print = "-0" ∧
    decimalValue (Value.number ⟨true, 1, -1000000000000000000⟩).print.toList ≠
      (⟨true, 1, -1000000000000000000⟩ : Decimal).toRat := by
  have text : (Value.number ⟨true, 1, -1000000000000000000⟩).print = "-0" := rfl
  have nothing : decimalValue "-0".toList = 0 := neg_eq_zero.mpr unsignedValue_zero
  refine ⟨by decide, text, ?_⟩
  rw [text, nothing]
  intro zero
  cases toRat_eq_zero_iff.mp zero.symm

end DecimalLisp
