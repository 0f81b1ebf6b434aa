import DecimalLisp.Proofs.Calculation.Results
import DecimalLisp.Proofs.Frames
import DecimalLisp.Proofs.Session.Answers

/-!
# Powers of a tenth

A session in which a name is bound to its own tenth power over and over comes to very small numbers
in few texts. Every product on the way is exact, as long as the results of the precision go down
that far.
-/

namespace DecimalLisp

open Decimal

/-! ## Products -/

/-- The product of so many tenths of one. -/
def Decimal.tenths (n : ℕ) : Decimal := ⟨false, 1, -n⟩

variable {p : Precision} {k m n : ℕ}

/-- A power of a tenth fits if its digit does not stand below the smallest exponent. -/
theorem fits_tenths (room : leastExp p ≤ -n) : (tenths n).Fits p := by
  have digit : (tenths n).adjusted ≤ maxAdjusted := by
    have one : digitCount 1 = 1 := by decide
    have range : 0 ≤ maxAdjusted := by decide
    change -(n : ℤ) + digitCount 1 - 1 ≤ maxAdjusted
    omega
  exact ⟨Nat.one_lt_pow (Nat.ne_zero_of_lt p.one_le) (by omega), room, fun _ => digit, nofun⟩

theorem exactProduct_tenths (m n : ℕ) : exactProduct (tenths m) (tenths n) = tenths (m + n) := by
  unfold exactProduct tenths
  congr 1
  push_cast
  ring

theorem multiply_tenths (room : leastExp p ≤ -(m + n : ℕ)) :
    multiply p (tenths m) (tenths n) = .ok (tenths (m + n)) := by
  rw [multiply, exactProduct_tenths, (fits_tenths room).round_eq]

/-- A product of equal powers of a tenth is exact if the power is large enough for the precision. -/
theorem fold_tenths (room : leastExp p ≤ -(m + k * n : ℕ)) :
    Operation.multiply.fold p (tenths m) (List.replicate k (tenths n)) =
      .ok (tenths (m + k * n)) := by
  induction k generalizing m with
  | zero =>
    rw [Nat.zero_mul, Nat.add_zero]
    rfl
  | succ k ih =>
    have sum : m + (k + 1) * n = m + n + k * n := by ring
    rw [sum] at room ⊢
    have first : Operation.multiply.run p (tenths m) (tenths n) = .ok (tenths (m + n)) :=
      multiply_tenths (by omega)
    rw [List.replicate_succ, Operation.fold, first]
    exact ih room

/-! ## Tenth powers in a session -/

namespace Session

/-- A text that binds `t` to the tenth power of what it was bound to. -/
def tenthPower : String := "(define t (* t t t t t t t t t t))"

/-- The expression of that power. -/
def tenthPowerProduct : Value := .list (.symbol "*" :: List.replicate 10 (.symbol "t"))

theorem parse_tenthPower : Reader.parse tenthPower =
    .ok (.list [.symbol "define", .symbol "t", tenthPowerProduct]) := rfl

/-- A text that binds `t` to a tenth. -/
def firstTenth : String := "(define t 0.1)"

theorem parse_firstTenth : Reader.parse firstTenth =
    .ok (.list [.symbol "define", .symbol "t", .number (tenths 1)]) := rfl

/-- Texts after which `t` is the largest power of a tenth that is not shown. -/
def tinyTexts : List String :=
  firstTenth :: List.replicate 18 tenthPower

/-- The root frame binds the builtins to their names. -/
structure HasBuiltins (session : Session) : Prop where
  /-- There is a root frame. -/
  made : root < session.frames.size
  /-- What is bound in it. -/
  builtin : ∀ b : Builtin, (session.frames.bindings root).value? b.name = some (.builtin b)

/-- It also binds `t` to a power of a tenth. -/
structure HasTenths (session : Session) (n : ℕ) : Prop extends session.HasBuiltins where
  /-- The exponent says which. -/
  number : (session.frames.bindings root).value? "t" = some (.number (tenths n))

variable {session : Session}

/-- A fresh root frame binds the builtins. -/
theorem hasBuiltins_standard (p : Precision) : (standard p).HasBuiltins := by
  refine ⟨Nat.zero_lt_one, ?_⟩
  rintro ((_ | _ | _ | _) | (_ | _ | _ | _ | _) | _) <;> rfl

/-- Binding `t` to a power of a tenth leaves the builtins bound. -/
theorem HasBuiltins.write (h : session.HasBuiltins) (log : Array LogEntry) (n : ℕ) :
    (session.resume ⟨session.frames.write root "t" (.number (tenths n)), log⟩).HasTenths n := by
  have bindings : (session.frames.write root "t" (.number (tenths n))).bindings root =
      (session.frames.bindings root).write "t" (.number (tenths n)) := by
    rw [Frames.bindings_write _ _ _ _ _ h.made, if_pos rfl]
  refine ⟨⟨?_, fun b => ?_⟩, ?_⟩ <;> unfold resume <;> dsimp only
  · rw [Frames.write, Frames.size_rebind]
    exact h.made
  · have other : b.name ≠ "t" := by
      rcases b with (_ | _ | _ | _) | (_ | _ | _ | _ | _) | _ <;> decide
    rw [bindings, Bindings.value?_write, if_neg other, h.builtin b]
  · rw [bindings, Bindings.value?_write, if_pos rfl]

variable (h : session.HasTenths n)
include h

/-- The factors of the tenth power have their values. -/
theorem HasTenths.factors (k : ℕ) (log : Array LogEntry) :
    DirectAll session.precision (List.replicate k (.symbol "t")) root ⟨session.frames, log⟩
      (.done (List.replicate k (.number (tenths n))) ⟨session.frames, log⟩) := by
  induction k with
  | zero => exact .nil
  | succ k ih => exact .cons (.bound (Frames.value?_here h.number)) ih

/-- The text binds `t` to the tenth power. -/
theorem HasTenths.next (room : leastExp session.precision ≤ -(10 * n : ℕ)) {bound : ℕ}
    {answer : Answer} {s : State}
    (ran : (session.run bound tenthPower).answer? = some (answer, s)) :
    (session.resume s).HasTenths (10 * n) := by
  have numbers : (List.replicate 10 (Value.number (tenths n))).map Value.number? =
      (List.replicate 10 (tenths n)).map some := rfl
  have product : Operation.multiply.fold session.precision (tenths 0)
      (List.replicate 10 (tenths n)) = .ok (tenths (10 * n)) := by
    rw [fold_tenths (by rwa [Nat.zero_add]), Nat.zero_add]
  have gives : (Builtin.arithmetic .multiply).apply session.precision
      (List.replicate 10 (.number (tenths n))) = .ok (.number (tenths (10 * n))) := by
    rw [Builtin.apply_arithmetic _ _ numbers, Operation.calculate_eq rfl]
    exact congrArg (fun total => (Except.mapError Fault.arithmetic total).map Value.number) product
  have sign := Frames.value?_here (h.builtin (.arithmetic .multiply))
  have value : Direct session.precision tenthPowerProduct root
      ⟨session.frames, #[.evaluating tenthPower]⟩
      (.done (.number (tenths (10 * n))) ⟨session.frames, #[.evaluating tenthPower]⟩) :=
    .builtin (fun form => by cases form <;> simp [SpecialForm.name]) (.bound sign)
      (h.factors 10 _) gives
  rw [state_of_direct parse_tenthPower (.define value) ran]
  exact h.toHasBuiltins.write _ _

/-- The steps of arithmetic that the text comes to multiply a lower power by the number. -/
theorem HasTenths.step (room : leastExp session.precision ≤ -(10 * n : ℕ)) {operation : Operation}
    {x y : Decimal} {e : Value} (read : Reader.parse tenthPower = .ok e)
    (step : (session.task tenthPower e).Calculates session.precision operation x y) :
    operation = .multiply ∧ ∃ m, m + n ≤ 10 * n ∧ x = tenths m ∧ y = tenths n := by
  cases parse_tenthPower.symm.trans read
  have taken : Builtin.numbers (List.replicate 10 (Value.number (tenths n))) =
      .ok (List.replicate 10 (tenths n)) := Builtin.numbers_of_map rfl
  have atoms : ∀ e ∈ List.replicate 10 (Value.symbol "t"), e.isList = false := by
    intro e mem
    rw [List.eq_of_mem_replicate mem]
    rfl
  obtain ⟨rfl, start, before, after, operands, total⟩ := step.of_define.of_atoms atoms
    (h.factors 10 _) taken rfl (Frames.value?_here (h.builtin (.arithmetic .multiply)))
  obtain ⟨rfl, split⟩ := Prod.mk.inj (Option.some.inj operands)
  have equal : ∀ z ∈ before ++ y :: after, z = tenths n :=
    fun z mem => List.eq_of_mem_replicate (split ▸ mem)
  have lower := List.eq_replicate_of_mem fun z mem => equal z (List.mem_append_left _ mem)
  have fewer : (before.length + 1) * n ≤ 10 * n := by
    have lengths := congrArg List.length split
    rw [List.length_replicate, List.length_append, List.length_cons] at lengths
    exact Nat.mul_le_mul_right n (by omega)
  rw [Nat.succ_mul] at fewer
  have power : Operation.multiply.fold session.precision (tenths 0) before =
      .ok (tenths (0 + before.length * n)) := by
    rw [lower, List.length_replicate]
    exact fold_tenths (by omega)
  refine ⟨rfl, before.length * n, fewer, ?_, equal y (List.mem_append_right _ List.mem_cons_self)⟩
  rw [Nat.zero_add] at power
  exact Except.ok.inj (total.symm.trans power)

/-- When the text stands there several times, the arithmetic that a session comes to multiplies
powers of a tenth, none of them too small, or it is that of the texts after it. -/
theorem HasTenths.steps (k : ℕ) (room : leastExp session.precision ≤ -(10 ^ k * n : ℕ))
    {rest : List String} {operation : Operation} {x y : Decimal}
    (step : session.Calculates (List.replicate k tenthPower ++ rest) operation x y) :
    (operation = .multiply ∧ ∃ i j, i + j ≤ 10 ^ k * n ∧ x = tenths i ∧ y = tenths j) ∨
      ∃ later : Session, later.precision = session.precision ∧ later.HasTenths (10 ^ k * n) ∧
        later.Calculates rest operation x y := by
  induction k generalizing session n with
  | zero => exact .inr ⟨session, rfl, by rwa [Nat.pow_zero, Nat.one_mul], step⟩
  | succ k ih =>
    have power : 10 ^ (k + 1) * n = 10 ^ k * (10 * n) := by ring
    have positive : 0 < 10 ^ k := Nat.pow_pos (by omega)
    have least : 10 * n ≤ 10 ^ k * (10 * n) := Nat.le_mul_of_pos_left _ positive
    rw [power] at room ⊢
    cases step with
    | here read step =>
      obtain ⟨rfl, m, fewer, hx, hy⟩ := h.step (by omega) read step
      exact .inl ⟨rfl, m, n, fewer.trans least, hx, hy⟩
    | later first others =>
      -- Said of the session after the first text; its precision is the same by definition.
      have after := ih (h.next (by omega) first) room others
      exact after

end Session

end DecimalLisp
