import DecimalLisp.Proofs.Decimal.Digits
import DecimalLisp.Proofs.Decimal.Numeral
import DecimalLisp.Reader
import Mathlib.Data.Nat.Digits.Lemmas

/-!
# Atoms

A token that is no parenthesis is an atom. It is a number if the grammar of numerals derives it, and
a symbol if not. A numeral says all about its number: the sign, which zero keeps, the digits of the
coefficient, of which only zeros in front are dropped, and the exponent. However many digits there
are, none is rounded away.
-/

namespace DecimalLisp

namespace Text

/-- A digit is worth at most nine. -/
theorem Worth.lt_ten {text : List Char} {digits : List ℕ} (h : Worth text digits) :
    ∀ d ∈ digits, d < 10 := by
  intro d mem
  have written : some d ∈ text.map digitValue? := h ▸ List.mem_map_of_mem mem
  obtain ⟨c, -, value⟩ := List.mem_map.mp written
  exact digitValue?_lt value

/-- The number that digits write is the number of these digits, the last one counted first. -/
theorem ofDigits_eq (digits : List ℕ) : ofDigits digits = Nat.ofDigits 10 digits.reverse := by
  rw [Nat.ofDigits_eq_foldr, List.foldr_reverse, ofDigits]
  congr 1
  funext value digit
  exact Nat.add_comm _ _

/-- The digits of the number that digits write are these digits without the zeros in front. -/
theorem digits_ofDigits {digits : List ℕ} (small : ∀ d ∈ digits, d < 10) :
    (Nat.digits 10 (ofDigits digits)).reverse = digits.dropWhile (· = 0) := by
  induction digits with
  | nil => rfl
  | cons d rest ih =>
    by_cases zero : d = 0
    · subst zero
      have same : ofDigits (0 :: rest) = ofDigits rest := rfl
      rw [same, ih fun e mem => small e (List.mem_cons_of_mem 0 mem)]
      rfl
    · have kept : (d :: rest).dropWhile (· = 0) = d :: rest :=
        List.dropWhile_cons_of_neg (by simpa using zero)
      have last : ∀ nonempty : (d :: rest).reverse ≠ [],
          (d :: rest).reverse.getLast nonempty ≠ 0 := by
        intro _
        rw [List.getLast_reverse]
        exact zero
      rw [kept, ofDigits_eq, Nat.digits_ofDigits 10 (by decide) _
        (fun e mem => small e (List.mem_reverse.mp mem)) last, List.reverse_reverse]

end Text

namespace Numeral

/-- All digits of a numeral are worth at most nine. -/
theorem Written.lt_ten {text : List Char} {n : Numeral} (h : Written text n) :
    ∀ d ∈ n.whole ++ n.fraction, d < 10 := by
  cases h with
  | parts _ digits _ =>
    intro d mem
    cases digits with
    | whole worth _ => exact worth.lt_ten d (by simpa using mem)
    | pointed worth _ worth' =>
      rcases List.mem_append.mp mem with before | after
      · exact worth.lt_ten d before
      · exact worth'.lt_ten d after
    | fraction worth _ => exact worth.lt_ten d mem

end Numeral

namespace Reader

variable {token : String}

/-- A numeral is read as its number if a number can carry it and it is in range. -/
theorem atom_of_written {n : Numeral} (written : Numeral.Written token.toList n) :
    atom token =
      if n.number.representable = false then .error (.unrepresentable token)
      else if n.number.coeff ≠ 0 ∧ Decimal.maxAdjusted < n.number.adjusted.natAbs then
        .error (.outOfRange token)
      else .ok (.number n.number) := by
  rw [atom, Numeral.ofText?_eq_some_iff.mpr written]
  dsimp only
  cases n.number.representable with
  | false => rfl
  | true => simp [Decimal.isZero]

/-- A word that is no numeral is read as a symbol. -/
theorem atom_of_not_written (none : ∀ n, ¬ Numeral.Written token.toList n) :
    atom token = .ok (.symbol token) := by
  have nothing : Numeral.ofText? token.toList = .none := by
    cases found : Numeral.ofText? token.toList with
    | none => rfl
    | some n => exact absurd (Numeral.ofText?_eq_some_iff.mp found) (none n)
  rw [atom, nothing]

/-- A number whose first and last digit do not stand too far from the point can be carried. -/
theorem representable_of_near {x : Decimal} (last : |x.exp| ≤ Decimal.maxExponent)
    (first : |x.adjusted| ≤ Decimal.maxExponent) : x.representable = true := by
  have below : Decimal.minExponent ≤ -Decimal.maxExponent := by decide
  rw [Decimal.representable, Bool.and_eq_true, decide_eq_true_eq, decide_eq_true_eq]
  refine ⟨below.trans (abs_le.mp last).1, ?_⟩
  split
  · exact (abs_le.mp last).2
  · exact (abs_le.mp first).2

end Reader

open Reader

/-- A token is read as a number or refused as out of range if and only if it is a numeral; any other
token is a symbol. The number has the written sign, the digits of the numeral without zeros in front,
and the written exponent lowered by the digits after the point. It is refused if and only if it is
not zero and its first digit stands too far from the point. -/
theorem atom_reads_numerals {token : String}
    (near : ∀ n, Numeral.Written token.toList n →
      |n.number.exp| ≤ Decimal.maxExponent ∧ |n.number.adjusted| ≤ Decimal.maxExponent) :
    ((∃ n, Numeral.Written token.toList n) ↔
      (∃ x, atom token = .ok (.number x)) ∨ atom token = .error (.outOfRange token)) ∧
    ((∀ n, ¬ Numeral.Written token.toList n) → atom token = .ok (.symbol token)) ∧
    (∀ n, Numeral.Written token.toList n → ∃ x : Decimal, x.negative = n.negative ∧
      (Nat.digits 10 x.coeff).reverse = (n.whole ++ n.fraction).dropWhile (· = 0) ∧
      x.exp = n.exponent - n.fraction.length ∧
      atom token = if x.coeff ≠ 0 ∧ 999999 < |x.adjusted| then .error (.outOfRange token)
        else .ok (.number x)) ∧
    (ReadFault.outOfRange token).kind = .malformed ∧
    (ReadFault.outOfRange token).message = "numeral out of range: " ++ token := by
  have read : ∀ n, Numeral.Written token.toList n → atom token =
      if n.number.coeff ≠ 0 ∧ 999999 < |n.number.adjusted| then .error (.outOfRange token)
      else .ok (.number n.number) := by
    intro n written
    obtain ⟨last, first⟩ := near n written
    rw [atom_of_written written, representable_of_near last first, if_neg Bool.true_eq_false.mp,
      ← Int.abs_eq_natAbs]
    rfl
  refine ⟨⟨?_, ?_⟩, atom_of_not_written, ?_, rfl, rfl⟩
  · rintro ⟨n, written⟩
    rw [read n written]
    split
    · exact .inr rfl
    · exact .inl ⟨_, rfl⟩
  · intro settled
    by_contra none
    rw [atom_of_not_written (not_exists.mp none)] at settled
    rcases settled with ⟨x, symbol⟩ | symbol <;> cases symbol
  · intro n written
    exact ⟨n.number, rfl, Text.digits_ofDigits written.lt_ten, rfl, read n written⟩

/-- A negative number with zeros in front, a digit of another script and an exponent, and a fraction
that is out of range though its exponent as written is not. -/
theorem atom_reads_numerals_scripts :
    let n : Numeral := ⟨true, [0, 0, 3], [4, 0], 2⟩
    let small : Numeral := ⟨false, [], [0, 5], -999998⟩
    Numeral.Written "-00٣.40e+2".toList n ∧ Numeral.Written ".05E-999998".toList small ∧
      (∀ m, Numeral.Written "-00٣.40e+2".toList m →
        |m.number.exp| ≤ Decimal.maxExponent ∧ |m.number.adjusted| ≤ Decimal.maxExponent) ∧
      (∀ m, Numeral.Written ".05E-999998".toList m →
        |m.number.exp| ≤ Decimal.maxExponent ∧ |m.number.adjusted| ≤ Decimal.maxExponent) ∧
      atom "-00٣.40e+2" = .ok (.number ⟨true, 340, 0⟩) ∧
      atom ".05E-999998" = .error (.outOfRange ".05E-999998") := by
  intro n small
  have read : Numeral.ofText? "-00٣.40e+2".toList = some n := by decide
  have read' : Numeral.ofText? ".05E-999998".toList = some small := by decide
  have written := Numeral.ofText?_eq_some_iff.mp read
  have written' := Numeral.ofText?_eq_some_iff.mp read'
  have near : ∀ m, Numeral.Written "-00٣.40e+2".toList m →
      |m.number.exp| ≤ Decimal.maxExponent ∧ |m.number.adjusted| ≤ Decimal.maxExponent := by
    intro m other
    obtain rfl : n = m := Option.some.inj (read.symm.trans (Numeral.ofText?_eq_some_iff.mpr other))
    decide
  have near' : ∀ m, Numeral.Written ".05E-999998".toList m →
      |m.number.exp| ≤ Decimal.maxExponent ∧ |m.number.adjusted| ≤ Decimal.maxExponent := by
    intro m other
    obtain rfl : small = m :=
      Option.some.inj (read'.symm.trans (Numeral.ofText?_eq_some_iff.mpr other))
    decide
  refine ⟨written, written', near, near', ?_, ?_⟩
  · obtain ⟨x, sign, digits, exponent, result⟩ := (atom_reads_numerals near).2.2.1 n written
    have coeff : x.coeff = 340 := by
      have value := congrArg (Nat.ofDigits 10 ∘ List.reverse) digits
      rwa [Function.comp_apply, Function.comp_apply, List.reverse_reverse,
        Nat.ofDigits_digits] at value
    obtain ⟨negative, digits, exp⟩ := x
    dsimp only at sign coeff exponent
    subst sign coeff exponent
    exact result.trans (if_neg (by decide))
  · rcases ((atom_reads_numerals near').1.mp ⟨small, written'⟩) with ⟨x, number⟩ | refused
    · cases number
    · exact refused

end DecimalLisp
