import DecimalLisp.Proofs.Likeness.Basic

/-!
# Likeness of calculations

What a builtin procedure gives depends on its arguments up to likeness, if each step of
arithmetic that it carries out does. Comparison and the choice of the last argument ask for
nothing more.
-/

namespace DecimalLisp

namespace Likeness

variable (r : Likeness) (p p' : Precision)

/-- A step of arithmetic gives like numbers for like numbers in the two precisions, or fails for
the same cause. -/
def Agrees (operation : Operation) (x y : Decimal) : Prop :=
  ∀ x' y', r.number x x' → r.number y y' →
    Results Eq r.number (operation.run p x y) (operation.run p' x' y')

variable {r p p'} {operation : Operation}

/-- Like numbers are taken from like values, or the same argument is refused. -/
theorem numbers {n : ℕ} {vs vs' : List Value} (values : List.Forall₂ (r.Values n) vs vs') :
    Results r.Faults (List.Forall₂ r.number) (Builtin.numbers vs) (Builtin.numbers vs') := by
  induction values with
  | nil => exact .ok .nil
  | @cons v v' vs vs' first _ ih =>
    have number := first.number?
    rw [Builtin.numbers, Builtin.numbers]
    generalize v.number? = x, v'.number? = x' at number
    cases number with
    | none => exact .error (.notNumber first)
    | some hx =>
      generalize Builtin.numbers vs = xs, Builtin.numbers vs' = xs' at ih
      cases ih with
      | ok hxs => exact .ok (.cons hx hxs)
      | error fault => exact .error fault

/-- Folds over like numbers give like numbers if each step that is carried out agrees. -/
theorem fold {xs xs' : List Decimal} (numbers : List.Forall₂ r.number xs xs') {x x' : Decimal}
    (start : r.number x x')
    (agree : ∀ before y after t, xs = before ++ y :: after →
      operation.fold p x before = .ok t → r.Agrees p p' operation t y) :
    Results Eq r.number (operation.fold p x xs) (operation.fold p' x' xs') := by
  induction numbers generalizing x x' with
  | nil => exact .ok start
  | @cons y y' xs xs' hy _ ih =>
    have step := agree [] y xs x rfl rfl x' y' start hy
    have later := fun before z after t (hxs : xs = before ++ z :: after) =>
      agree (y :: before) z after t (by rw [hxs, List.cons_append])
    simp only [Operation.fold] at later ⊢
    generalize operation.run p x y = next, operation.run p' x' y' = next' at step later
    cases step with
    | ok hnext => exact ih hnext later
    | error cause => exact .error cause

/-- Like numbers are like operands. -/
theorem operands? (operation : Operation) {xs xs' : List Decimal}
    (numbers : List.Forall₂ r.number xs xs') :
    Option.Rel (fun given given' => r.number given.1 given'.1 ∧
      List.Forall₂ r.number given.2 given'.2)
      (operation.operands? xs) (operation.operands? xs') := by
  cases operation with
  | add => exact .some ⟨r.refl _, numbers⟩
  | multiply => exact .some ⟨r.refl _, numbers⟩
  | subtract | divide =>
    cases numbers with
    | nil => exact .none
    | cons hx rest =>
      cases rest with
      | nil => exact .some ⟨r.refl _, .cons hx .nil⟩
      | cons hy rest => exact .some ⟨hx, .cons hy rest⟩

/-- Calculation on like numbers gives like numbers if each step that is carried out agrees. -/
theorem calculate {xs xs' : List Decimal} (numbers : List.Forall₂ r.number xs xs')
    (agree : ∀ start before y after t, operation.operands? xs = some (start, before ++ y :: after) →
      operation.fold p start before = .ok t → r.Agrees p p' operation t y) :
    Results r.Faults r.number (operation.calculate p xs) (operation.calculate p' xs') := by
  have given := operands? operation numbers
  unfold Operation.calculate
  generalize operation.operands? xs = taken, operation.operands? xs' = taken' at given agree
  cases given with
  | none => exact .error (.refl _)
  | @some taken taken' both =>
    obtain ⟨start, rest⟩ := taken
    have run := fold both.2 both.1 fun before y after t split =>
      agree start before y after t (by rw [← split])
    dsimp only at run ⊢
    generalize operation.fold p start rest = total,
      operation.fold p' taken'.1 taken'.2 = total' at run
    cases run with
    | ok like => exact .ok like
    | error cause =>
      cases cause
      exact .error (.refl _)

/-- A relation holds along like numbers in both runs or in neither. -/
theorem chain_eq (relation : Relation) {xs xs' : List Decimal}
    (numbers : List.Forall₂ r.number xs xs') : relation.chain xs = relation.chain xs' := by
  induction numbers with
  | nil => rfl
  | cons hx rest ih =>
    cases rest with
    | nil => rfl
    | cons hy rest =>
      rw [Relation.chain, Relation.chain, ih]
      unfold Relation.holds
      rw [r.compare hx hy]

/-- The last of like values is alike. -/
theorem last {n : ℕ} (b : Builtin) (least : ℕ) {vs vs' : List Value}
    (values : List.Forall₂ (r.Values n) vs vs') :
    Results r.Faults (r.Values n) (Builtin.last b least vs) (Builtin.last b least vs') := by
  have reversed := List.rel_reverse values
  rw [Builtin.last, Builtin.last, List.getLast?_eq_head?_reverse,
    List.getLast?_eq_head?_reverse]
  generalize vs.reverse = us, vs'.reverse = us' at reversed
  cases reversed with
  | nil => exact .error (.refl _)
  | cons first _ => exact .ok first

/-- Builtin procedures give like values for like arguments, if each step of arithmetic that is
carried out agrees. -/
theorem builtin_apply {n : ℕ} (b : Builtin) {vs vs' : List Value}
    (values : List.Forall₂ (r.Values n) vs vs')
    (agree : ∀ operation xs start before y after t, b = .arithmetic operation →
      Builtin.numbers vs = .ok xs →
      operation.operands? xs = some (start, before ++ y :: after) →
      operation.fold p start before = .ok t → r.Agrees p p' operation t y) :
    Results r.Faults (r.Values n) (b.apply p vs) (b.apply p' vs') := by
  have taken := numbers values
  cases b with
  | sequence => exact last .sequence 1 values
  | comparison relation =>
    simp only [Builtin.apply]
    generalize Builtin.numbers vs = xs, Builtin.numbers vs' = xs' at taken
    cases taken with
    | error fault => exact .error fault
    | ok like =>
      dsimp only
      rw [← like.length_eq, ← chain_eq relation like]
      split
      · exact .error (.refl _)
      · split
        · exact last (.comparison relation) 2 values
        · exact .ok (.list .nil)
  | arithmetic operation =>
    simp only [Builtin.apply]
    generalize Builtin.numbers vs = xs, Builtin.numbers vs' = xs' at taken agree
    cases taken with
    | error fault => exact .error fault
    | @ok xs xs' like =>
      have result := calculate like fun start before y after t =>
        agree operation xs start before y after t rfl rfl
      dsimp only
      generalize operation.calculate p xs = z, operation.calculate p' xs' = z' at result
      cases result with
      | ok like => exact .ok (.number like)
      | error fault => exact .error fault

end Likeness

end DecimalLisp
