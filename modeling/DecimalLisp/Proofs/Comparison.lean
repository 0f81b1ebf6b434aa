import DecimalLisp.Proofs.Calculation.Regrouping
import DecimalLisp.Proofs.Decimal.Order
import DecimalLisp.Proofs.Evaluation.Steps
import DecimalLisp.Session

/-!
# Comparison of several numbers

A comparing builtin looks at neighbours only, and it compares their exact values. The relations are
transitive, so what holds between neighbours holds between every two numbers of the row, an earlier
one and a later one. A comparison that holds is answered by its last number. That is no empty list,
even if it is a zero, and so a conditional takes the answer for true.
-/

namespace DecimalLisp

open Decimal

namespace Relation

variable {relation : Relation}

/-- The relation between rationals. -/
def exact : Relation → ℚ → ℚ → Prop
  | greater, q, r => q > r
  | less, q, r => q < r
  | atLeast, q, r => q ≥ r
  | atMost, q, r => q ≤ r
  | equal, q, r => q = r

instance decidableExact : (relation : Relation) → DecidableRel relation.exact
  | greater, q, r => inferInstanceAs (Decidable (q > r))
  | less, q, r => inferInstanceAs (Decidable (q < r))
  | atLeast, q, r => inferInstanceAs (Decidable (q ≥ r))
  | atMost, q, r => inferInstanceAs (Decidable (q ≤ r))
  | equal, q, r => inferInstanceAs (Decidable (q = r))

/-- Every relation passes on from one number to the next. -/
theorem exact_trans {q r s : ℚ} (h : relation.exact q r) (h' : relation.exact r s) :
    relation.exact q s := by
  cases relation with
  | greater => exact gt_trans h h'
  | less => exact lt_trans h h'
  | atLeast => exact ge_trans h h'
  | atMost => exact le_trans h h'
  | equal => exact Eq.trans h h'

instance : Trans relation.exact relation.exact relation.exact := ⟨exact_trans⟩

/-- Two numbers are related as the rationals that they stand for. -/
theorem holds_iff {x y : Decimal} :
    relation.holds x y = true ↔ relation.exact x.toRat y.toRat := by
  have order := compareValue_compares x y
  rcases lt_trichotomy x.toRat y.toRat with lt | eq | gt
  · have found := order.eq_lt.mpr lt
    cases relation <;> simp [holds, exact, found, lt, lt.le, lt.ne, lt.not_gt]
  · have found := order.eq_eq.mpr eq
    cases relation <;> simp [holds, exact, found, eq]
  · have found := order.eq_gt.mpr gt
    cases relation <;> simp [holds, exact, found, gt, gt.le, gt.ne', gt.not_gt]

/-- Neighbours are related just when every number is related to all later ones. -/
theorem chain_iff {xs : List Decimal} :
    relation.chain xs = true ↔ (xs.map toRat).Pairwise relation.exact := by
  rw [← List.isChain_iff_pairwise]
  induction xs with
  | nil => exact iff_of_true rfl .nil
  | cons x rest ih =>
    cases rest with
    | nil => exact iff_of_true rfl (.singleton _)
    | cons y rest =>
      rw [chain, Bool.and_eq_true, List.map_cons, List.map_cons, List.isChain_cons_cons]
      exact and_congr holds_iff ih

/-- Just one of three relations holds between two rationals. -/
theorem existsUnique_exact (q r : ℚ) :
    ∃! relation : Relation, relation ∈ [less, equal, greater] ∧ relation.exact q r := by
  rcases lt_trichotomy q r with lt | eq | gt
  · refine ⟨less, ⟨by decide, lt⟩, fun relation here => ?_⟩
    cases relation <;> simp [exact, lt.ne, lt.not_gt] at here ⊢
  · refine ⟨equal, ⟨by decide, eq⟩, fun relation here => ?_⟩
    cases relation <;> simp [exact, eq] at here ⊢
  · refine ⟨greater, ⟨by decide, gt⟩, fun relation here => ?_⟩
    cases relation <;> simp [exact, gt.ne', gt.not_gt] at here ⊢

end Relation

/-- A number is not false, even if it is a zero. -/
theorem Value.isFalse_of_number {v : Value} (h : v.number?.isSome) : v.isFalse = false := by
  cases v with
  | number x => rfl
  | constant x => rfl
  | _ => cases h

namespace Builtin

variable {p : Precision} {relation : Relation}

/-- The first value that is no number is reported, whatever comes after it. -/
theorem numbers_of_first {before : List Value} {v : Value} (after : List Value)
    (numbersBefore : ∀ u ∈ before, u.toRat?.isSome) (first : v.toRat? = none) :
    numbers (before ++ v :: after) = .error (.notNumber v) := by
  induction before with
  | nil =>
    have other : v.number? = none := Option.map_eq_none_iff.mp first
    rw [List.nil_append, numbers, other]
  | cons u rest ih =>
    have given := numbersBefore u List.mem_cons_self
    obtain ⟨x, number⟩ := Option.isSome_iff_exists.mp (Option.isSome_map .. ▸ given)
    rw [List.cons_append, numbers, number]
    dsimp only
    rw [ih fun u mem => numbersBefore u (List.mem_cons_of_mem _ mem)]

/-- A comparison of at least two numbers gives the last of them if they are related in their order,
and the empty list otherwise. -/
theorem apply_comparison (p : Precision) (relation : Relation) {vs : List Value} {qs : List ℚ}
    (values : vs.map Value.toRat? = qs.map some) (several : 2 ≤ qs.length) :
    ∃ v, vs.getLast? = some v ∧ v.isFalse = false ∧
      (comparison relation).apply p vs =
        .ok (if qs.Pairwise relation.exact then v else .nil) := by
  obtain ⟨xs, given, rfl⟩ := Value.exists_numbers values
  have count : vs.length = xs.length := by simpa using congrArg List.length given
  rw [List.length_map] at several
  have nonempty : vs ≠ [] := List.ne_nil_of_length_pos (by omega)
  have last := List.getLast?_eq_some_getLast nonempty
  have number : (vs.getLast nonempty).number?.isSome := by
    have mem := List.mem_map_of_mem (f := Value.number?) (List.getLast_mem nonempty)
    rw [given] at mem
    obtain ⟨x, -, found⟩ := List.mem_map.mp mem
    rw [← found]
    rfl
  refine ⟨vs.getLast nonempty, last, Value.isFalse_of_number number, ?_⟩
  rw [apply, numbers_of_map given]
  dsimp only
  rw [if_neg (by omega), if_congr Relation.chain_iff rfl rfl, Builtin.last, last]
  split <;> rfl

/-- A comparison of fewer than two numbers has too few. -/
theorem apply_comparison_of_few {vs : List Value} {qs : List ℚ}
    (values : vs.map Value.toRat? = qs.map some) (few : qs.length < 2) :
    (comparison relation).apply p vs = .error (.tooFew (comparison relation) 2) := by
  obtain ⟨xs, given, rfl⟩ := Value.exists_numbers values
  rw [List.length_map] at few
  rw [apply, numbers_of_map given]
  exact if_pos few

/-- The answer of a comparison of two numbers is true just when they are related. -/
theorem true_comparison_iff {u w : Value} {q r : ℚ} (hu : u.toRat? = some q)
    (hw : w.toRat? = some r) :
    (∃ t, (comparison relation).apply p [u, w] = .ok t ∧ t.isFalse = false) ↔
      relation.exact q r := by
  have values : [u, w].map Value.toRat? = [q, r].map some := by simp [hu, hw]
  obtain ⟨v, -, notFalse, answer⟩ := apply_comparison p relation values le_rfl
  rw [answer, if_congr List.pairwise_pair rfl rfl]
  split
  · next related => exact iff_of_true ⟨v, rfl, notFalse⟩ related
  · next unrelated =>
    refine iff_of_false ?_ unrelated
    rintro ⟨t, same, notFalse⟩
    cases same
    cases notFalse

end Builtin

/-- A conditional whose test is a comparison of numbers goes on with the first branch if they are
related in their order, and with the second one otherwise. -/
theorem evaluate_if_comparison {p : Precision} {relation : Relation} {vs es : List Value}
    {qs : List ℚ} {f : FrameId} {s s' : State} {n k : ℕ} (yes no : Value)
    (values : vs.map Value.toRat? = qs.map some) (several : 2 ≤ qs.length)
    (bound : s.frames.value? f (.symbol relation.name) = some (.builtin (.comparison relation)))
    (arguments : evaluateAll (evaluate p n) f es s = .done vs s') (steps : n + 1 < k) :
    evaluate p (k + 1) (.list [.symbol "if", .list (.symbol relation.name :: es), yes, no]) f s =
      evaluate p k (if qs.Pairwise relation.exact then yes else no) f s' := by
  obtain ⟨m, rfl⟩ : ∃ m, k = m + 2 := ⟨k - 2, by omega⟩
  have word : ∀ form : SpecialForm, relation.name ≠ form.name := by
    intro form
    cases relation <;> cases form <;> decide
  have more : evaluateAll (evaluate p (m + 1)) f es s = .done vs s' := by
    rw [evaluateAll_eq_of_le (n := n) (by omega) (by rw [arguments]; nofun), arguments]
  obtain ⟨v, -, notFalse, answer⟩ := Builtin.apply_comparison p relation values several
  have asked : evaluate p (m + 2) (.list (.symbol relation.name :: es)) f s =
      .done (if qs.Pairwise relation.exact then v else .nil) s' := by
    rw [evaluate_builtin word bound]
    refine (Action.bind_of_done more).trans ?_
    rw [answer]
    rfl
  rw [evaluate_conditional asked]
  split
  · rw [notFalse]
    rfl
  · rfl

/-- Comparisons of at least two numbers decide whether each of them is related to all later ones.
They give the last number as it is if so and the empty list otherwise, and a conditional goes on
accordingly. Of any two numbers either the first is less, or they are equal, or the first is
greater. The first argument that is no number is reported before a missing one is. -/
theorem comparison_decides_all_pairs (p : Precision) :
    (∀ (relation : Relation) (vs : List Value) (qs : List ℚ),
      vs.map Value.toRat? = qs.map some → 2 ≤ qs.length →
        (∃ v, vs.getLast? = some v ∧ v.isFalse = false ∧
          (Builtin.comparison relation).apply p vs =
            .ok (if qs.Pairwise relation.exact then v else .nil)) ∧
        ∀ (f : FrameId) (es : List Value) (s s' : State) (n k : ℕ) (yes no : Value),
          s.frames.value? f (.symbol relation.name) = some (.builtin (.comparison relation)) →
          evaluateAll (evaluate p n) f es s = .done vs s' → n + 1 < k →
            evaluate p (k + 1)
                (.list [.symbol "if", .list (.symbol relation.name :: es), yes, no]) f s =
              evaluate p k (if qs.Pairwise relation.exact then yes else no) f s') ∧
      (∀ (u w : Value) (q r : ℚ), u.toRat? = some q → w.toRat? = some r →
        ∃! relation : Relation, relation ∈ [.less, .equal, .greater] ∧
          ∃ t, (Builtin.comparison relation).apply p [u, w] = .ok t ∧ t.isFalse = false) ∧
      (∀ (relation : Relation) (before : List Value) (v : Value) (after : List Value),
        (∀ u ∈ before, u.toRat?.isSome) → v.toRat? = none →
          ∃ fault, (Builtin.comparison relation).apply p (before ++ v :: after) = .error fault ∧
            fault.kind = .type ∧ fault.message = "Expected a number but got " ++ v.print) ∧
      ∀ (relation : Relation) (vs : List Value) (qs : List ℚ),
        vs.map Value.toRat? = qs.map some → qs.length < 2 →
          ∃ fault, (Builtin.comparison relation).apply p vs = .error fault ∧
            fault.kind = .arity := by
  refine ⟨?_, ?_, ?_, ?_⟩
  · intro relation vs qs values several
    refine ⟨Builtin.apply_comparison p relation values several, ?_⟩
    intro f es s s' n k yes no bound arguments steps
    exact evaluate_if_comparison yes no values several bound arguments steps
  · intro u w q r hu hw
    simp only [Builtin.true_comparison_iff hu hw]
    exact Relation.existsUnique_exact q r
  · intro relation before v after numbersBefore first
    refine ⟨.notNumber v, ?_, rfl, rfl⟩
    rw [Builtin.apply, Builtin.numbers_of_first after numbersBefore first]
  · intro relation vs qs values few
    exact ⟨_, Builtin.apply_comparison_of_few values few, rfl⟩

/-- Five is greater than three, and both are greater than a zero with a minus, which is the answer
and is true. A symbol among the arguments is reported, also where a number is missing. -/
theorem comparison_decides_all_pairs_zero :
    (Builtin.comparison .greater).apply .standard
        [.number (.ofNat 5), .number (.ofNat 3), .number ⟨true, 0, -3⟩] =
      .ok (.number ⟨true, 0, -3⟩) ∧
    evaluate .standard 4
        (.list [.symbol "if",
          .list [.symbol ">", .number (.ofNat 5), .number (.ofNat 3), .number ⟨true, 0, -3⟩],
          .number (.ofNat 1), .number (.ofNat 2)])
        Session.root (Session.standard .standard).state =
      .done (.number (.ofNat 1)) (Session.standard .standard).state ∧
    (∃! relation : Relation, relation ∈ [.less, .equal, .greater] ∧
      ∃ t, (Builtin.comparison relation).apply .standard
        [.number (.ofNat 5), .number (.ofNat 3)] = .ok t ∧ t.isFalse = false) ∧
    (∃ fault, (Builtin.comparison .greater).apply .standard [.symbol "x"] = .error fault ∧
      fault.kind = .type ∧ fault.message = "Expected a number but got x") ∧
    ∃ fault, (Builtin.comparison .greater).apply .standard [.number (.ofNat 5)] = .error fault ∧
      fault.kind = .arity := by
  have five : (Value.number (.ofNat 5)).toRat? = some 5 := congrArg some (toRat_ofNat 5)
  have three : (Value.number (.ofNat 3)).toRat? = some 3 := congrArg some (toRat_ofNat 3)
  have zero : (Value.number ⟨true, 0, -3⟩).toRat? = some 0 :=
    congrArg some (toRat_eq_zero_iff.mpr rfl)
  have values : [Value.number (.ofNat 5), .number (.ofNat 3), .number ⟨true, 0, -3⟩].map
      Value.toRat? = [5, 3, 0].map some := by simp [five, three, zero]
  have related : [5, 3, 0].Pairwise Relation.greater.exact := by decide
  obtain ⟨row, two, first, few⟩ := comparison_decides_all_pairs .standard
  obtain ⟨⟨v, last, -, answer⟩, branches⟩ := row .greater _ _ values (by decide)
  cases last
  rw [if_pos related] at answer
  have branch := branches Session.root
    [.number (.ofNat 5), .number (.ofNat 3), .number ⟨true, 0, -3⟩]
    (Session.standard .standard).state (Session.standard .standard).state 1 3
    (.number (.ofNat 1)) (.number (.ofNat 2)) rfl rfl (by decide)
  rw [if_pos related] at branch
  exact ⟨answer, branch, two _ _ 5 3 five three, first .greater [] (.symbol "x") [] nofun rfl,
    few .greater _ [5] (congrArg (fun q => [q]) five) (by decide)⟩

end DecimalLisp
