import DecimalLisp.Proofs.Calculation.Regrouping
import DecimalLisp.Proofs.Decimal.Monotone

/-!
# Order of results

Of two numbers the larger one never leads to a smaller result, whatever is rounded away. A call that
succeeds has rounded after each step of its fold. Sums and products round their first number too,
before they take the second, while differences and quotients start from it as it is; so the results
of two numbers come from one or two roundings. Each of them keeps order, and so does the exact
operation between them, which a negative factor or divisor turns round.
-/

namespace DecimalLisp

open Decimal

namespace Operation

variable {p : Precision} {operation : Operation} {q r s : ℚ} {qs : List ℚ}

/-- What a fold over rationals comes to if no step fails: each step is rounded. -/
def roundedFold (p : Precision) (operation : Operation) (qs : List ℚ) : ℚ :=
  (operation.exactOperands qs).2.foldl (fun total q => roundRat p (operation.exact total q))
    (operation.exactOperands qs).1

/-- A step that succeeds gives the rounded result. -/
theorem eq_roundRat_of_exactStep (h : operation.exactStep p q r = .ok s) :
    s = roundRat p (operation.exact q r) := by
  unfold exactStep rounding at h
  split at h
  · cases h
  · split at h
    · cases h
    · exact (Except.ok.inj h).symm

/-- A fold that succeeds has rounded after each step. -/
theorem eq_roundedFold_of_exactFold (h : operation.exactFold p qs = .ok s) :
    s = operation.roundedFold p qs := by
  unfold exactFold at h
  unfold roundedFold
  generalize (operation.exactOperands qs).1 = start at h ⊢
  generalize (operation.exactOperands qs).2 = rest at h ⊢
  induction rest generalizing start with
  | nil => exact (Except.ok.inj h).symm
  | cons r rest ih =>
    rw [List.foldlM_cons] at h
    cases step : operation.exactStep p start r with
    | error cause =>
      rw [step] at h
      cases h
    | ok next =>
      rw [step] at h
      rw [List.foldl_cons, ← eq_roundRat_of_exactStep step]
      exact ih next h

/-- The value of a calculation is what the fold over the values comes to. -/
theorem calculate_eq_exactFold (p : Precision) (operation : Operation) {xs : List Decimal}
    (given : operation = subtract ∨ operation = divide → xs ≠ []) :
    (operation.calculate p xs).map toRat =
      (operation.exactFold p (xs.map toRat)).mapError .arithmetic := by
  obtain ⟨start, rest, taken, values⟩ := operands?_toRat given
  rw [calculate_toRat taken, fold_toRat, exactFold, values]

/-- A calculation that succeeds has rounded after each step. -/
theorem toRat_of_calculate {xs : List Decimal} {x : Decimal} (some : xs ≠ [])
    (h : operation.calculate p xs = .ok x) :
    x.toRat = operation.roundedFold p (xs.map toRat) := by
  have value := calculate_eq_exactFold p operation fun _ => some
  rw [h] at value
  cases folded : operation.exactFold p (xs.map toRat) with
  | error cause =>
    rw [folded] at value
    cases value
  | ok s =>
    rw [folded] at value
    rw [← eq_roundedFold_of_exactFold folded]
    exact Except.ok.inj value

/-! ## Folds of two rationals -/

/-- What the first of two rationals has become when the second is taken. -/
def taken (p : Precision) : Operation → ℚ → ℚ
  | add, q => roundRat p q
  | subtract, q => q
  | multiply, q => roundRat p q
  | divide, q => q

theorem taken_mono (p : Precision) (operation : Operation) : Monotone (operation.taken p) := by
  cases operation with
  | add | multiply => exact roundRat_mono p
  | subtract | divide => exact monotone_id

theorem roundedFold_pair (p : Precision) (operation : Operation) (q r : ℚ) :
    operation.roundedFold p [q, r] = roundRat p (operation.exact (operation.taken p q) r) := by
  cases operation with
  | add => exact congrArg (fun s => roundRat p (roundRat p s + r)) (zero_add q)
  | multiply => exact congrArg (fun s => roundRat p (roundRat p s * r)) (one_mul q)
  | subtract | divide => rfl

/-! ## Calls -/

/-- Whenever the calls on two rows of arguments both succeed, they give numbers, the first one no
larger than the second. -/
def InOrder (p : Precision) (operation : Operation) (vs ws : List Value) : Prop :=
  ∀ r s, (Builtin.arithmetic operation).apply p vs = .ok r →
    (Builtin.arithmetic operation).apply p ws = .ok s →
    ∃ q q', r.toRat? = some q ∧ s.toRat? = some q' ∧ q ≤ q'

/-- A call on numbers that succeeds gives the number that its fold comes to. -/
theorem toRat?_of_apply {vs : List Value} {r : Value} (values : vs.map Value.toRat? = qs.map some)
    (given : qs ≠ []) (h : (Builtin.arithmetic operation).apply p vs = .ok r) :
    r.toRat? = some (operation.roundedFold p qs) := by
  obtain ⟨xs, numbers, rfl⟩ := Value.exists_numbers values
  rw [Builtin.apply_arithmetic p operation numbers] at h
  cases result : operation.calculate p xs with
  | error fault =>
    rw [result] at h
    cases h
  | ok x =>
    rw [result] at h
    cases h
    have some : xs ≠ [] := fun none => given (none ▸ rfl)
    exact congrArg _ (toRat_of_calculate some result)

section Two

variable {u v w : Value} {a b c : ℚ} (hu : u.toRat? = some a) (hv : v.toRat? = some b)
  (hw : w.toRat? = some c) (le : a ≤ b)

/-- A call with two numbers that succeeds gives a number that comes from one or two roundings. -/
theorem toRat?_of_apply_pair (hu : u.toRat? = some a) (hv : v.toRat? = some b) {r : Value}
    (h : (Builtin.arithmetic operation).apply p [u, v] = .ok r) :
    r.toRat? = some (roundRat p (operation.exact (operation.taken p a) b)) := by
  have values : [u, v].map Value.toRat? = [a, b].map some := by simp [hu, hv]
  rw [toRat?_of_apply values (List.cons_ne_nil _ _) h, roundedFold_pair]

include hu hv hw le

/-- If the exact operation keeps the order of first numbers, so do results. -/
theorem inOrder_first (keeps : Monotone (operation.exact · c)) :
    operation.InOrder p [u, w] [v, w] := fun _ _ called called' =>
  ⟨_, _, toRat?_of_apply_pair hu hw called, toRat?_of_apply_pair hv hw called',
    roundRat_mono p (keeps (taken_mono p operation le))⟩

/-- If the exact operation turns the order of first numbers round, so do results. -/
theorem inOrder_first_of_antitone (turns : Antitone (operation.exact · c)) :
    operation.InOrder p [v, w] [u, w] := fun _ _ called called' =>
  ⟨_, _, toRat?_of_apply_pair hv hw called, toRat?_of_apply_pair hu hw called',
    roundRat_mono p (turns (taken_mono p operation le))⟩

/-- If the exact operation keeps the order of second numbers, so do results. -/
theorem inOrder_second (keeps : ∀ q, Monotone (operation.exact q)) :
    operation.InOrder p [w, u] [w, v] := fun _ _ called called' =>
  ⟨_, _, toRat?_of_apply_pair hw hu called, toRat?_of_apply_pair hw hv called',
    roundRat_mono p (keeps _ le)⟩

/-- If the exact operation turns the order of second numbers round, so do results. -/
theorem inOrder_second_of_antitone (turns : ∀ q, Antitone (operation.exact q)) :
    operation.InOrder p [w, v] [w, u] := fun _ _ called called' =>
  ⟨_, _, toRat?_of_apply_pair hw hv called, toRat?_of_apply_pair hw hu called',
    roundRat_mono p (turns _ le)⟩

end Two

end Operation

open Operation

/-- However much is rounded away, results are in the order of the numbers that they come from: a
larger summand, a larger first number of a difference, and a larger number that is multiplied or
divided by a positive one do not lead to smaller results. A larger number that is subtracted, or
that is multiplied or divided by a negative one, does not lead to a larger result. -/
theorem rounding_keeps_order {p : Precision} {u v w : Value} {a b c : ℚ} (hu : u.toRat? = some a)
    (hv : v.toRat? = some b) (hw : w.toRat? = some c) (le : a ≤ b) :
    add.InOrder p [u, w] [v, w] ∧ add.InOrder p [w, u] [w, v] ∧
      subtract.InOrder p [u, w] [v, w] ∧ subtract.InOrder p [w, v] [w, u] ∧
      (0 < c → multiply.InOrder p [u, w] [v, w] ∧ divide.InOrder p [u, w] [v, w]) ∧
      (c < 0 → multiply.InOrder p [v, w] [u, w] ∧ divide.InOrder p [v, w] [u, w]) := by
  refine ⟨?_, ?_, ?_, ?_, fun plus => ⟨?_, ?_⟩, fun minus => ⟨?_, ?_⟩⟩
  · exact inOrder_first hu hv hw le fun _ _ h => add_le_add_left h c
  · exact inOrder_second hu hv hw le fun q _ _ h => add_le_add_right h q
  · exact inOrder_first hu hv hw le fun _ _ h => sub_le_sub_right h c
  · exact inOrder_second_of_antitone hu hv hw le fun q _ _ h => sub_le_sub_left h q
  · exact inOrder_first hu hv hw le fun _ _ h => mul_le_mul_of_nonneg_right h plus.le
  · exact inOrder_first hu hv hw le fun _ _ h => div_le_div_of_nonneg_right h plus.le
  · exact inOrder_first_of_antitone hu hv hw le fun _ _ h => mul_le_mul_of_nonpos_right h minus.le
  · exact inOrder_first_of_antitone hu hv hw le fun _ _ h => div_le_div_of_nonpos_of_le minus.le h

/-- With two digits the larger of two numbers is rounded up to the next power of ten before it is
multiplied, and the smaller one is not. -/
theorem rounding_keeps_order_carry :
    (⟨false, 994, -2⟩ : Decimal).toRat ≤ (⟨false, 996, -2⟩ : Decimal).toRat ∧
      0 < (Decimal.ofNat 7).toRat ∧
      (Builtin.arithmetic .multiply).apply ⟨2, by decide⟩
        [.number ⟨false, 994, -2⟩, .number (.ofNat 7)] = .ok (.number (.ofNat 69)) ∧
      (Builtin.arithmetic .multiply).apply ⟨2, by decide⟩
        [.number ⟨false, 996, -2⟩, .number (.ofNat 7)] = .ok (.number (.ofNat 70)) ∧
      ∃ q q', (Value.number (.ofNat 69)).toRat? = some q ∧
        (Value.number (.ofNat 70)).toRat? = some q' ∧ q ≤ q' := by
  have le : (⟨false, 994, -2⟩ : Decimal).toRat ≤ (⟨false, 996, -2⟩ : Decimal).toRat := by
    norm_num [toRat, sign]
  have plus : 0 < (Decimal.ofNat 7).toRat := by norm_num [toRat_ofNat]
  have first : (Builtin.arithmetic .multiply).apply ⟨2, by decide⟩
      [.number ⟨false, 994, -2⟩, .number (.ofNat 7)] = .ok (.number (.ofNat 69)) := rfl
  have second : (Builtin.arithmetic .multiply).apply ⟨2, by decide⟩
      [.number ⟨false, 996, -2⟩, .number (.ofNat 7)] = .ok (.number (.ofNat 70)) := rfl
  have order := rounding_keeps_order (p := ⟨2, by decide⟩) (u := .number ⟨false, 994, -2⟩)
    (v := .number ⟨false, 996, -2⟩) (w := .number (.ofNat 7)) rfl rfl rfl le
  exact ⟨le, plus, first, second, (order.2.2.2.2.1 plus).1 _ _ first second⟩

end DecimalLisp
