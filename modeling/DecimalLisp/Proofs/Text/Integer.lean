import DecimalLisp.Proofs.Decimal.Notation
import DecimalLisp.Text.Integer
import Mathlib.Data.List.TakeWhile

/-!
# Written integers

A natural number that is written with plain digits, as usual, is read as itself, if it has no more
digits than an integer may have.
-/

namespace DecimalLisp.Text

/-- Nothing is dropped from plain digits. -/
theorem dropWhile_plain {text : List Char} (h : PlainDigits text) :
    text.dropWhile isIntegerBlank = text := by
  refine List.dropWhile_eq_self_iff.mpr fun present => ?_
  rw [isIntegerBlank, isBlank_of_isDigit (h _ (List.getElem_mem present))]
  exact Bool.false_ne_true

/-- Plain digits without underscores are digits. -/
theorem groupedDigits?_plain {text : List Char} (h : PlainDigits text) (present : text ≠ []) :
    groupedDigits? text = some (text.map plainWorth) := by
  induction text with
  | nil => exact absurd rfl present
  | cons c rest ih =>
    obtain ⟨first, others⟩ := List.forall_mem_cons.mp h
    cases rest with
    | nil => rw [groupedDigits?, digitValue?_of_isDigit first]; rfl
    | cons d rest =>
      have noUnderscore : d ≠ '_' := by
        rintro rfl
        exact absurd (others _ List.mem_cons_self) (by decide)
      rw [groupedDigits?, digitValue?_of_isDigit first, ih others (List.cons_ne_nil _ _)]
      · rfl
      · exact List.cons_ne_nil _ _
      · exact fun _ same => noUnderscore (List.cons.inj same).1

/-- A number is written with plain digits. -/
theorem plainDigits_toString (n : ℕ) : PlainDigits (toString n).toList := by
  rw [Nat.toString_eq_ofList_toDigits, String.toList_ofList]
  exact fun _ hc => Nat.isDigit_of_mem_toDigits (by omega) (by omega) hc

/-- A number that is written as usual is read as itself. -/
theorem integer?_toString {n : ℕ} (short : (Nat.toDigits 10 n).length ≤ integerDigitLimit) :
    integer? (toString n).toList = some (n : ℤ) := by
  have plain := plainDigits_toString n
  have value : ofDigits ((Nat.toDigits 10 n).map plainWorth) = n := by
    rw [ofDigits_plain, Nat.ofDigitChars_toDigits (by decide) (by decide)]
  have present : Nat.toDigits 10 n ≠ [] := Nat.toDigits_ne_nil
  rw [Nat.toString_eq_ofList_toDigits, String.toList_ofList] at plain ⊢
  generalize Nat.toDigits 10 n = text at short plain value present
  have read : natural? text = some n := by
    rw [natural?, groupedDigits?_plain plain present]
    simp [short, value]
  have back : PlainDigits text.reverse := fun c mem => plain c (List.mem_reverse.mp mem)
  rw [integer?, dropWhile_plain plain, dropWhile_plain back, List.reverse_reverse]
  split
  · exact absurd (plain _ List.mem_cons_self) (by decide)
  · exact absurd (plain _ List.mem_cons_self) (by decide)
  · rw [read]
    rfl

end DecimalLisp.Text
