import DecimalLisp.Evaluation.Step

/-!
# Evaluation

An expression is evaluated by taking steps until one leads to a value. The parts that a
step needs are evaluated in the same way. The first argument bounds how many steps may
follow one another and how deeply parts may lie inside parts; evaluation that ends
within a bound ends in the same way within every larger one.
-/

namespace DecimalLisp

/-- Evaluates an expression in a frame. -/
def evaluate (p : Precision) : Nat → Value → FrameId → State → Outcome Value
  | 0, _, _, _ => .unfinished
  | bound + 1, expression, frame, state =>
    match step p (evaluate p bound) expression frame state with
    | .done (.value value) state => .done value state
    | .done (.tail expression frame) state => evaluate p bound expression frame state
    | .failed fault state => .failed fault state
    | .unfinished => .unfinished

/-- A step more allows for all that was possible without it. -/
theorem evaluate_approximates_succ (p : Precision) (bound : Nat) (expression : Value)
    (frame : FrameId) :
    Action.Approximates (evaluate p bound expression frame)
      (evaluate p (bound + 1) expression frame) := by
  induction bound generalizing expression frame with
  | zero => exact fun _ => .inl rfl
  | succ bound ih =>
    intro state
    rw [evaluate, evaluate]
    rcases step_approximates p ih expression frame state with stuck | same
    · exact .inl (by rw [stuck])
    · rw [← same]
      split
      · exact .inr rfl
      · exact ih _ _ _
      · exact .inr rfl
      · exact .inl rfl

/-- Evaluation that ends within a bound ends in the same way within a larger one. -/
theorem evaluate_eq_of_le {p : Precision} {bound larger : Nat} (h : bound ≤ larger)
    {expression : Value} {frame : FrameId} {state : State}
    (ends : evaluate p bound expression frame state ≠ .unfinished) :
    evaluate p larger expression frame state = evaluate p bound expression frame state := by
  induction h with
  | refl => rfl
  | step _ ih =>
    rw [← ih] at ends ⊢
    exact ((evaluate_approximates_succ p _ expression frame).eq_of_ends ends).symm

end DecimalLisp
