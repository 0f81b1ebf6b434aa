import DecimalLisp.Proofs.Calculation.Regrouping
import DecimalLisp.Proofs.Likeness.ByValue
import DecimalLisp.Proofs.Likeness.Code
import DecimalLisp.Proofs.Likeness.Session
import DecimalLisp.Proofs.Session.Powers

/-!
# Exact runs in higher precisions

A rational that a precision represents is represented in every higher one too, where the unit to
which it is rounded is no larger. So a session whose arithmetic loses nothing answers with the
same texts in a higher precision. Only pi is another number there, and no text may ask for it. Nor
may the higher precision be one of the very largest: there a result can be too small to be shown
with all its digits, and what is shown of it depends on how many the precision has room for.
-/

namespace DecimalLisp

open Decimal Reader Value

/-! ## Rationals that are represented -/

/-- A higher precision has a unit that is no larger. -/
theorem unitExp_le_of_digits_le {p p' : Precision} (more : p.digits ≤ p'.digits) (q : ℚ) :
    unitExp p' q ≤ unitExp p q := by
  have least : leastExp p' ≤ leastExp p := by
    unfold leastExp
    omega
  unfold unitExp
  omega

/-- What a precision represents is left as it is in a higher one. -/
theorem rounding_of_digits_le {p p' : Precision} (more : p.digits ≤ p'.digits) {q : ℚ}
    (h : rounding p q = .ok q) : rounding p' q = .ok q := by
  unfold rounding at h
  split at h
  · cases h
  · next within =>
    have same : roundRat p q = q := Except.ok.inj h
    have multiple : q = roundHalfEven (q / 10 ^ unitExp p q) * 10 ^ unitExp p q := same.symm
    have same' := roundRat_of_multiple p' multiple (unitExp_le_of_digits_le more q)
    rw [rounding, same', if_neg (by rwa [same] at within)]

namespace Operation

/-- A step of arithmetic loses nothing: it gives a number of the exact value, or it fails because
of a division by zero. -/
def LosesNothing (p : Precision) (operation : Operation) (x y : Decimal) : Prop :=
  (∃ z, operation.run p x y = .ok z ∧ z.toRat = operation.exact x.toRat y.toRat) ∨
    ∃ cause, operation.run p x y = .error cause ∧ cause ≠ .overflow

/-- A step that loses nothing is the same step on rationals in a higher precision. -/
theorem LosesNothing.exactStep_eq {p p' : Precision} (more : p.digits ≤ p'.digits)
    {operation : Operation} {x y : Decimal} (h : operation.LosesNothing p x y) :
    operation.exactStep p x.toRat y.toRat = operation.exactStep p' x.toRat y.toRat := by
  have step := operation.run_toRat p x y
  unfold exactStep at step ⊢
  by_cases zero : operation = divide ∧ y.toRat = 0
  · rw [if_pos zero, if_pos zero]
  · rw [if_neg zero] at step ⊢
    rw [if_neg zero]
    rcases h with ⟨z, run, value⟩ | ⟨cause, run, other⟩
    · rw [run] at step
      have fits : rounding p (operation.exact x.toRat y.toRat) =
          .ok (operation.exact x.toRat y.toRat) := by
        rw [← step, ← value]
        rfl
      rw [fits, rounding_of_digits_le more fits]
    · -- Rounding fails by overflow only.
      rw [run] at step
      unfold rounding at step
      split at step
      · exact absurd (Except.error.inj step) other
      · cases step

end Operation

/-! ## Sessions -/

/-- Values whose numbers have the same values, in runs that do not ask for pi. -/
def Likeness.withoutPi : Likeness :=
  byValue Eq (fun _ _ same => same ▸ .refl _) (· == "pi")

/-- A text that does not mention pi is read alike in both runs. -/
theorem Likeness.reads_withoutPi {code : String}
    (unmentioned : ∀ v, parse code = .ok v → ¬ v.Mentions "pi") : withoutPi.Reads code code := by
  unfold Reads
  cases read : parse code with
  | error fault => exact .error rfl
  | ok v =>
    refine .ok (code_self (fun _ => rfl) (plain_of_parse read) fun name hidden asked => ?_)
    obtain rfl : name = "pi" := beq_iff_eq.mp hidden
    exact unmentioned v read asked.mentions

/-- A session without pi whose arithmetic loses nothing comes to the end of its texts within the
same bounds in every higher precision that is none of the largest. Its values have the same texts
there, and its faults are of the same kinds with the same messages. -/
theorem exact_answers_of_digits_le {p p' : Precision} (more : p.digits ≤ p'.digits)
    (few : p'.digits ≤ Precision.mostShown) {codes : List String}
    (unmentioned : ∀ code ∈ codes, ∀ v, parse code = .ok v → ¬ v.Mentions "pi")
    (exact : ∀ operation x y, (Session.standard p).Calculates codes operation x y →
      operation.LosesNothing p x y) (bound : ℕ) :
    Option.Rel
      (fun course course' => course.1.map (Answer.view print Fault.told) =
        course'.1.map (Answer.view print Fault.told))
      ((Session.standard p).answersWithin bound codes)
      ((Session.standard p').answersWithin bound codes) := by
  have start : Likeness.withoutPi.Heaps (Session.standard p).frames (Session.standard p').frames :=
    Likeness.standard_alike (Nat.zero_le 1) rfl (.inl rfl)
  have courses := Likeness.answers_alike rfl start Nat.zero_lt_one
    (List.forall₂_same.mpr fun code mem => Likeness.reads_withoutPi (unmentioned code mem))
    (fun operation x y step =>
      Likeness.byValue_agrees (more.trans few) few ((exact operation x y step).exactStep_eq more))
    bound
  refine rel_imp courses fun course course' alike => ?_
  exact alike.views_eq (fun h => h.print_eq) fun h => h.told_eq fun same => same

/-- An eighth has three digits, and so a precision of three is enough for it. -/
theorem exact_answers_of_digits_le_eighth :
    let three : Precision := ⟨3, by decide⟩
    three.digits ≤ Precision.standard.digits ∧ Precision.standard.digits ≤ Precision.mostShown ∧
      (∀ code ∈ ["(/ 1 8)"], ∀ v, parse code = .ok v → ¬ v.Mentions "pi") ∧
      (∀ operation x y, (Session.standard three).Calculates ["(/ 1 8)"] operation x y →
        operation.LosesNothing three x y) ∧
      ((Session.standard three).answersWithin 3 ["(/ 1 8)"]).isSome = true ∧
      Option.Rel
        (fun course course' => course.1.map (Answer.view print Fault.told) =
          course'.1.map (Answer.view print Fault.told))
        ((Session.standard three).answersWithin 3 ["(/ 1 8)"])
        ((Session.standard .standard).answersWithin 3 ["(/ 1 8)"]) := by
  intro three
  have read : parse "(/ 1 8)" =
      .ok (.list [.symbol "/", .number (.ofNat 1), .number (.ofNat 8)]) := rfl
  have eighth : Operation.divide.run ⟨3, by decide⟩ (.ofNat 1) (.ofNat 8) =
      .ok ⟨false, 125, -3⟩ := by decide
  have more : three.digits ≤ Precision.standard.digits := by decide
  have few : Precision.standard.digits ≤ Precision.mostShown := by decide
  have unmentioned : ∀ code ∈ ["(/ 1 8)"], ∀ v, parse code = .ok v → ¬ v.Mentions "pi" := by
    intro code mem v hv mentions
    rw [List.mem_singleton.mp mem, read] at hv
    cases hv
    simp at mentions
  have exact : ∀ operation x y, (Session.standard three).Calculates ["(/ 1 8)"] operation x y →
      operation.LosesNothing three x y := by
    intro operation x y h
    cases h with
    | later _ rest => cases rest
    | here hv step =>
      rw [read] at hv
      cases hv
      have bound : (Session.standard three).frames.value? Session.root (.symbol "/") =
          some (.builtin (.arithmetic .divide)) := rfl
      have given := directAll_numbers three [.ofNat 1, .ofNat 8] Session.root
        ((Session.standard three).task "(/ 1 8)" (.list [])).state
      obtain ⟨rfl, start, before, after, operands, total⟩ :=
        step.of_atoms (by simp [Value.isList]) given rfl rfl bound
      cases before with
      | nil =>
        cases operands
        cases total
        refine .inl ⟨_, eighth, ?_⟩
        norm_num [toRat, sign, Operation.exact, ofNat]
      | cons z before => simp [Operation.operands?] at operands
  exact ⟨more, few, unmentioned, exact, by decide +kernel,
    exact_answers_of_digits_le more few unmentioned exact 3⟩

/-! ## Where the precision shows -/

/-- Powers of a tenth are multiplied exactly if the product is not too small. -/
theorem losesNothing_tenths {p : Precision} {m n : ℕ} (room : leastExp p ≤ -(m + n : ℕ)) :
    Operation.multiply.LosesNothing p (tenths m) (tenths n) := by
  refine .inl ⟨_, multiply_tenths room, ?_⟩
  rw [← exactProduct_tenths, toRat_exactProduct]
  rfl

/-- A sum with the value of one operand is exact if that operand fits. -/
theorem losesNothing_add {p : Precision} {x y z : Decimal} (fits : z.Fits p)
    (value : x.toRat + y.toRat = z.toRat) : Operation.add.LosesNothing p x y := by
  have sum := add_toRat p x y
  rw [value, fits.rounding_eq] at sum
  cases result : add p x y with
  | ok w =>
    rw [result] at sum
    exact .inl ⟨w, result, (Except.ok.inj sum).trans value.symm⟩
  | error cause =>
    rw [result] at sum
    cases sum

/-- A session comes to the largest power of a tenth that is not shown without losing anything, if
results of the precision go down that far. -/
theorem losesNothing_tinyTexts {p : Precision} {codes : List String}
    (room : leastExp p ≤ -1000000000000000000)
    (after : ∀ later : Session, later.precision = p → later.HasTenths 1000000000000000000 →
      ∀ operation x y, later.Calculates codes operation x y → operation.LosesNothing p x y)
    (operation : Operation) (x y : Decimal)
    (h : (Session.standard p).Calculates (Session.tinyTexts ++ codes) operation x y) :
    operation.LosesNothing p x y := by
  have power : 10 ^ 18 * 1 = 1000000000000000000 := by norm_num
  cases h with
  | here read step =>
    cases Session.parse_firstTenth.symm.trans read
    obtain ⟨items, listed⟩ := step.of_define.list
    cases listed
  | @later _ _ _ bound answer s _ _ _ first rest =>
    have derived := Session.state_of_direct Session.parse_firstTenth (.define (.itself rfl rfl))
      first
    have tenths : ((Session.standard p).resume s).HasTenths 1 := by
      rw [derived]
      exact (Session.hasBuiltins_standard p).write _ _
    rcases tenths.steps 18 (by rw [power]; exact room) rest with
      ⟨rfl, i, j, most, rfl, rfl⟩ | ⟨later, same, power', step⟩
    · exact losesNothing_tenths (by omega)
    · exact after later same (power ▸ power') _ _ _ step

/-- A text that adds a zero of a low exponent to the power. -/
def Session.lowZeroSum : String := "(+ t 0e-1000000000000000001)"

theorem Session.parse_lowZeroSum : parse Session.lowZeroSum =
    .ok (.list [.symbol "+", .symbol "t", .number ⟨false, 0, -1000000000000000001⟩]) := rfl

/-- Nor is anything lost when such a zero is added to a power of a tenth that is not too small. -/
theorem losesNothing_lowZeroSum {session : Session} {n : ℕ} (has : session.HasTenths n)
    (room : leastExp session.precision ≤ -n) (operation : Operation) (x y : Decimal)
    (h : session.Calculates [Session.lowZeroSum] operation x y) :
    operation.LosesNothing session.precision x y := by
  cases h with
  | later _ rest => cases rest
  | here read step =>
    cases Session.parse_lowZeroSum.symm.trans read
    obtain ⟨rfl, start, before, after, operands, total⟩ := step.of_atoms
      (by simp [Value.isList])
      (.cons (.bound (Frames.value?_here has.number)) (.cons (.itself rfl rfl) .nil)) rfl rfl
      (Frames.value?_here (has.builtin (.arithmetic .add)))
    have fits := fits_tenths room
    rcases before with _ | ⟨b, _ | ⟨c, before⟩⟩
    · cases operands
      cases total
      exact losesNothing_add fits (by rw [toRat_ofNat, Nat.cast_zero, zero_add])
    · cases operands
      have value := Operation.fold_add_zero fits []
      rw [total] at value
      have zero : (⟨false, 0, -1000000000000000001⟩ : Decimal).toRat = 0 :=
        toRat_eq_zero_iff.mpr rfl
      exact losesNothing_add fits (by rw [Except.ok.inj value, zero, add_zero])
    · simp [Operation.operands?] at operands

/-- In the next precision the same session can be told apart, though it loses nothing in the lower
one. A zero of a low exponent is added to a power of a tenth that is too small to be shown. Only the
higher precision has room for the further digit, and with that digit the power is shown after all. -/
theorem exact_answers_differ :
    let p : Precision := ⟨Precision.mostShown, by decide⟩
    let p' : Precision := ⟨Precision.mostShown + 1, by decide⟩
    let codes := Session.tinyTexts ++ [Session.lowZeroSum]
    p.digits ≤ p'.digits ∧ (∀ code ∈ codes, ∀ v, parse code = .ok v → ¬ v.Mentions "pi") ∧
      (∀ operation x y, (Session.standard p).Calculates codes operation x y →
        operation.LosesNothing p x y) ∧
      ¬ Option.Rel
        (fun course course' => course.1.map (Answer.view print Fault.told) =
          course'.1.map (Answer.view print Fault.told))
        ((Session.standard p).answersWithin 6 codes)
        ((Session.standard p').answersWithin 6 codes) := by
  intro p p' codes
  have lower : ((Session.standard p).answersWithin 6 codes).map
      (fun course => Answer.lastNumber? course.1) =
      some (some ⟨false, 1, -1000000000000000000⟩) := by decide +kernel
  have higher : ((Session.standard p').answersWithin 6 codes).map
      (fun course => Answer.lastNumber? course.1) =
      some (some ⟨false, 10, -1000000000000000001⟩) := by decide +kernel
  refine ⟨Nat.le_succ _, ?_, losesNothing_tinyTexts (by decide) ?_, fun alike => ?_⟩
  · intro code mem v read
    rcases List.mem_append.mp mem with mem | mem
    · rcases List.mem_cons.mp mem with rfl | mem
      · cases Session.parse_firstTenth.symm.trans read
        simp
      · rw [List.eq_of_mem_replicate mem, Session.parse_tenthPower] at read
        cases read
        simp [Session.tenthPowerProduct]
    · rw [List.mem_singleton.mp mem, Session.parse_lowZeroSum] at read
      cases read
      simp
  · intro later same has
    have exact := losesNothing_lowZeroSum has (by rw [same]; decide)
    rwa [same] at exact
  · exact plainText_ne_of_shown rfl (by decide)
      (Session.plainText_eq_of_views alike (fun _ _ same => same) lower higher)

end DecimalLisp
