import DecimalLisp.Proofs.Evaluation.Parts
import DecimalLisp.Proofs.Likeness.Calculation
import DecimalLisp.Proofs.Likeness.Code
import DecimalLisp.Proofs.Likeness.Frames

/-!
# Likeness of evaluations

Like code that is evaluated in answering frames of like states ends alike: with like values and
like states, or with like faults and like states, or not at all. The one thing that is asked for
is that the arithmetic which the first evaluation comes to agrees with that of the second. One
step leads to like places, and a run follows from its steps.
-/

namespace DecimalLisp

namespace Likeness

/-- Like endings of two actions. There are at least as many frames as at the beginning. -/
inductive Outcomes {α β : Type} (r : Likeness) (least : ℕ) (values : State → α → β → Prop) :
    Outcome α → Outcome β → Prop where
  | done {a b t t'} (grown : least ≤ t.frames.size) (states : r.States t t')
      (alike : values t a b) : Outcomes r least values (.done a t) (.done b t')
  | failed {x y t t'} (grown : least ≤ t.frames.size) (states : r.States t t')
      (alike : r.Faults x y) : Outcomes r least values (.failed x t) (.failed y t')
  | unfinished : Outcomes r least values .unfinished .unfinished

namespace Outcomes

variable {α β : Type} {r : Likeness} {least : ℕ} {values : State → α → β → Prop}

/-- What began with more frames began with fewer. -/
theorem mono {more : ℕ} {o : Outcome α} {o' : Outcome β} (h : r.Outcomes more values o o')
    (le : least ≤ more) : r.Outcomes least values o o' := by
  cases h with
  | done grown states alike => exact .done (le.trans grown) states alike
  | failed grown states alike => exact .failed (le.trans grown) states alike
  | unfinished => exact .unfinished

/-- What is done after actions that end alike ends alike if it does after like values. -/
theorem bind {γ δ : Type} {values' : State → γ → δ → Prop} {first : Action α}
    {first' : Action β} {next : α → Action γ} {next' : β → Action δ} {s s' : State}
    (h : r.Outcomes least values (first s) (first' s'))
    (go : ∀ a b t t', first s = .done a t → least ≤ t.frames.size → r.States t t' →
      values t a b → r.Outcomes t.frames.size values' (next a t) (next' b t')) :
    r.Outcomes least values' ((first >>= next) s) ((first' >>= next') s') := by
  rw [Action.bind_apply, Action.bind_apply]
  generalize hf : first s = o, first' s' = o' at h
  cases h with
  | done grown states alike => exact (go _ _ _ _ hf grown states alike).mono grown
  | failed grown states alike => exact .failed grown states alike
  | unfinished => exact .unfinished

end Outcomes

/-- Like values when the state is the one that they were found in. -/
def ValuesIn (r : Likeness) (s : State) : Value → Value → Prop := r.Values s.frames.size

section Steps

variable (r : Likeness) (p p' : Precision)

/-- All arithmetic that a task comes to agrees. -/
def AgreesOn (task : Task) : Prop :=
  ∀ operation x y, task.Calculates p operation x y → r.Agrees p p' operation x y

/-- Like places for a step to lead to. -/
inductive Nexts (s : State) : Next → Next → Prop where
  | value {v w} : r.ValuesIn s v w → Nexts s (.value v) (.value w)
  | tail {e e' f} : r.Code e e' → f < s.frames.size → r.AgreesOn p p' ⟨e, f, s⟩ →
      Nexts s (.tail e f) (.tail e' (r.frame f))

/-- Evaluators that end alike on like tasks. -/
def Evaluators (evaluator evaluator' : Evaluator) : Prop :=
  ∀ {e e' f s s'}, r.Code e e' → f < s.frames.size → r.States s s' → r.AgreesOn p p' ⟨e, f, s⟩ →
    r.Outcomes s.frames.size r.ValuesIn (evaluator e f s) (evaluator' e' (r.frame f) s')

variable {r p p'}

/-- The arithmetic of a part agrees if that of the whole does. -/
theorem AgreesOn.part {task part : Task} (h : r.AgreesOn p p' task) (first : Part p task part) :
    r.AgreesOn p p' part :=
  fun operation x y done => h operation x y (done.of_part first)

/-! ## Steps of forms -/

variable {evaluator evaluator' : Evaluator} {f : FrameId} {s s' : State}

/-- A step to like values. -/
theorem Outcomes.value {v w : Value} (states : r.States s s')
    (alike : r.Values s.frames.size v w) :
    r.Outcomes s.frames.size (r.Nexts p p') (.done (.value v) s) (.done (.value w) s') :=
  .done le_rfl states (.value alike)

/-- A step to like faults. -/
theorem Outcomes.fault {α β : Type} {values : State → α → β → Prop} {x y : Fault}
    (states : r.States s s') (alike : r.Faults x y) :
    r.Outcomes s.frames.size values (.failed x s) (.failed y s') :=
  .failed le_rfl states alike

/-- Like values may be written in answering frames of like states. -/
theorem States.write (h : r.States s s') (made : f < s.frames.size) (name : String)
    {v w : Value} (alike : r.Values s.frames.size v w) :
    r.States { s with frames := s.frames.write f name v }
      { s' with frames := s'.frames.write (r.frame f) name w } :=
  h.withFrames (h.frames.write made name alike)

theorem quote_alike {parts parts' : List Value} (codes : List.Forall₂ r.Code parts parts')
    (states : r.States s s') :
    r.Outcomes s.frames.size (r.Nexts p p') (SpecialForm.quote.step evaluator f parts s)
      (SpecialForm.quote.step evaluator' (r.frame f) parts' s') := by
  by_cases empty : parts = [.list []]
  · rw [(quoted_empty_iff codes).mp empty, empty]
    exact .value states (.list .nil)
  · rw [step_quote empty, step_quote fun h => empty ((quoted_empty_iff codes).mpr h)]
    exact .value states (.list (codes.imp fun _ _ h => h.values _))

section Forms

variable (alike : r.Evaluators p p' evaluator evaluator') {parts parts' : List Value}
  (codes : List.Forall₂ r.Code parts parts') (made : f < s.frames.size) (states : r.States s s')

include alike codes made states

theorem conditional_alike (follows : Follows p evaluator)
    (agree : r.AgreesOn p p' ⟨.list (.symbol "if" :: parts), f, s⟩) :
    r.Outcomes s.frames.size (r.Nexts p p') (SpecialForm.conditional.step evaluator f parts s)
      (SpecialForm.conditional.step evaluator' (r.frame f) parts' s') := by
  by_cases count : parts.length = 3
  · obtain ⟨test, yes, no, rfl⟩ := List.length_eq_three.mp count
    obtain ⟨test', yes', no', rfl⟩ := List.length_eq_three.mp (codes.length_eq.symm.trans count)
    obtain ⟨asked, first, second⟩ := by simpa using codes
    refine (alike asked made states (agree.part .test)).bind fun v w t t' hv grown states' hvw => ?_
    have branch := agree.part (.branch (follows.direct hv nofun))
    have same := hvw.isFalse_eq
    refine .done le_rfl states' (.tail ?_ (made.trans_le grown) ?_)
    · rw [← same]
      cases v.isFalse with
      | true => exact second
      | false => exact first
    · exact branch
  · rw [step_ifParts count, step_ifParts (codes.length_eq ▸ count)]
    exact .fault states (.refl _)

theorem define_alike (agree : r.AgreesOn p p' ⟨.list (.symbol "define" :: parts), f, s⟩) :
    r.Outcomes s.frames.size (r.Nexts p p') (SpecialForm.define.step evaluator f parts s)
      (SpecialForm.define.step evaluator' (r.frame f) parts' s') := by
  rcases name_cases codes with ⟨count, count'⟩ | ⟨v, w, e, e', rfl, rfl, code, hv, hw⟩ |
    ⟨name, e, e', rfl, rfl, code⟩
  · rw [step_defineParts count, step_defineParts count']
    exact .fault states (.refl _)
  · rw [step_defineName hv, step_defineName hw]
    exact .fault states (.definitionName code)
  · refine (alike code made states (agree.part .define)).bind fun v w t t' _ grown states' hvw => ?_
    have size := t.frames.size_rebind f (·.write name v)
    refine .done size.ge (states'.write (made.trans_le grown) name hvw) (.value ?_)
    exact code.values _

theorem assign_alike (agree : r.AgreesOn p p' ⟨.list (.symbol "set!" :: parts), f, s⟩) :
    r.Outcomes s.frames.size (r.Nexts p p') (SpecialForm.assign.step evaluator f parts s)
      (SpecialForm.assign.step evaluator' (r.frame f) parts' s') := by
  rcases name_cases codes with ⟨count, count'⟩ | ⟨v, w, e, e', rfl, rfl, code, hv, hw⟩ |
    ⟨name, e, e', rfl, rfl, code⟩
  · rw [step_assignParts count, step_assignParts count']
    exact .fault states (.refl _)
  · rw [step_assignName hv, step_assignName hw]
    exact .fault states (.refl _)
  · refine (alike code made states (agree.part .assign)).bind fun v w t t' _ grown states' hvw => ?_
    have size := t.frames.size_rebind f (·.write name v)
    exact .failed size.ge (states'.write (made.trans_le grown) name hvw) (.refl _)

end Forms

theorem lambda_alike {parts parts' : List Value} (codes : List.Forall₂ r.Code parts parts')
    (made : f < s.frames.size) (states : r.States s s') :
    r.Outcomes s.frames.size (r.Nexts p p') (SpecialForm.lambda.step evaluator f parts s)
      (SpecialForm.lambda.step evaluator' (r.frame f) parts' s') := by
  by_cases listed : ∃ formals bodies, parts = .list formals :: bodies
  · obtain ⟨formals, bodies, rfl⟩ := listed
    obtain ⟨w, bodies', head, bodies_alike, rfl⟩ := List.forall₂_cons_left_iff.mp codes
    obtain ⟨formals', rfl, ⟨names, rfl, rfl⟩ | ⟨v, w, hv, hw, code⟩⟩ := head.formals
    · have symbols := firstNonSymbol?_symbols names
      rw [step_lambda _ symbols, step_lambda _ symbols]
      have length := bodies_alike.length_eq
      rcases bodies_alike with _ | ⟨body, _ | ⟨second, rest⟩⟩
      · exact .fault states (.refl _)
      · exact .value states (.lambda names body made)
      · dsimp only
        rw [length]
        exact .done le_rfl (states.note _) (.value (.lambda names body made))
    · rw [step_lambdaParameter hv, step_lambdaParameter hw]
      exact .fault states (.notParameter code)
  · have listed' : ¬ ∃ formals bodies, parts' = .list formals :: bodies := by
      rintro ⟨formals', bodies', rfl⟩
      obtain ⟨v, bodies, head, -, rfl⟩ := List.forall₂_cons_right_iff.mp codes
      cases head <;> exact listed ⟨_, _, rfl⟩
    rw [step_lambdaList fun formals bodies h => listed ⟨formals, bodies, h⟩,
      step_lambdaList fun formals bodies h => listed' ⟨formals, bodies, h⟩]
    exact .fault states (.refl _)

/-- Like forms take like steps. -/
theorem form_alike (alike : r.Evaluators p p' evaluator evaluator') (follows : Follows p evaluator)
    (form : SpecialForm) {parts parts' : List Value} (codes : List.Forall₂ r.Code parts parts')
    (made : f < s.frames.size) (states : r.States s s')
    (agree : r.AgreesOn p p' ⟨.list (.symbol form.name :: parts), f, s⟩) :
    r.Outcomes s.frames.size (r.Nexts p p')
      (step p evaluator (.list (.symbol form.name :: parts)) f s)
      (step p' evaluator' (.list (.symbol form.name :: parts')) (r.frame f) s') := by
  rw [step_form, step_form]
  cases form with
  | quote => exact quote_alike codes states
  | conditional => exact conditional_alike alike codes made states follows agree
  | define => exact define_alike alike codes made states agree
  | assign => exact assign_alike alike codes made states agree
  | lambda => exact lambda_alike codes made states

/-! ## Applications -/

/-- Like arguments are evaluated alike. -/
theorem evaluateAll_alike (alike : r.Evaluators p p' evaluator evaluator')
    (follows : Follows p evaluator) {es es' : List Value} (codes : List.Forall₂ r.Code es es')
    (made : f < s.frames.size) (states : r.States s s')
    (agree : ∀ before e after vs t, es = before ++ e :: after →
      DirectAll p before f s (.done vs t) → r.AgreesOn p p' ⟨e, f, t⟩) :
    r.Outcomes s.frames.size (fun t => List.Forall₂ (r.ValuesIn t)) (evaluateAll evaluator f es s)
      (evaluateAll evaluator' (r.frame f) es' s') := by
  induction codes generalizing s s' with
  | nil => exact .done le_rfl states .nil
  | @cons e e' es es' first _ ih =>
    rw [evaluateAll_cons, evaluateAll_cons]
    refine (alike first made states (agree [] e es [] s rfl .nil)).bind
      fun v w t t' hv grown states' hvw => ?_
    have rest := ih (made.trans_le grown) states' fun before e' after vs t' split given =>
      agree (e :: before) e' after (v :: vs) t' (by rw [split, List.cons_append])
        (.cons (follows.direct hv nofun) given)
    exact rest.bind fun vs ws u u' _ grown' states'' all =>
      .done le_rfl states'' (.cons (hvw.mono grown') all)

/-- Like procedures are applied alike to like arguments. -/
theorem apply_alike {v w : Value} {vs ws : List Value} (hv : r.ValuesIn s v w)
    (hvs : List.Forall₂ (r.ValuesIn s) vs ws) (states : r.States s s')
    (procedure : v.isProcedure = true)
    (calculation : ∀ operation xs start before y after t, v = .builtin (.arithmetic operation) →
      Builtin.numbers vs = .ok xs → operation.operands? xs = some (start, before ++ y :: after) →
      operation.fold p start before = .ok t → r.Agrees p p' operation t y)
    (call : ∀ formals body c frame, v = .lambda formals body c →
      Frame.ofCall formals c vs = .ok frame →
      r.AgreesOn p p' ⟨body, s.frames.size, { s with frames := s.frames.push frame }⟩) :
    r.Outcomes s.frames.size (r.Nexts p p') (applyProcedure p v vs s)
      (applyProcedure p' w ws s') := by
  cases hv with
  | number _ | constant _ | symbol _ | list _ => cases procedure
  | builtin b =>
    have result : Results r.Faults (r.ValuesIn s) (b.apply p vs) (b.apply p' ws) :=
      builtin_apply b hvs fun operation xs start before y after t hb =>
        calculation operation xs start before y after t (by rw [hb])
    rw [applyProcedure, applyProcedure]
    generalize b.apply p vs = x, b.apply p' ws = y at result
    cases result with
    | ok alike => exact .value states alike
    | error alike => exact .fault states alike
  | @lambda names body body' c code made =>
    have frames := ofCall names (c := c) hvs
    have agree := call (names.map .symbol) body c
    rw [applyProcedure, applyProcedure]
    generalize Frame.ofCall (names.map .symbol) c vs = x,
      Frame.ofCall (names.map .symbol) (r.frame c) ws = y at frames agree
    cases frames with
    | error alike => exact .fault states alike
    | @ok frame frame' both =>
      obtain ⟨bound, outer, outer'⟩ := both
      have heaps := states.frames.push bound outer outer' made
      have size := s.frames.size_push frame
      refine .done (by rw [size]; exact Nat.le_succ _) (states.withFrames heaps) ?_
      rw [← states.frames.frame_size]
      exact .tail code (by rw [size]; exact Nat.lt_succ_self _) (agree frame rfl rfl)

/-- Like applications take like steps. -/
theorem application_alike (alike : r.Evaluators p p' evaluator evaluator')
    (follows : Follows p evaluator) {head head' : Value} {parts parts' : List Value}
    (form : ∀ form : SpecialForm, head ≠ .symbol form.name) (first : r.Code head head')
    (rest : List.Forall₂ r.Code parts parts') (made : f < s.frames.size) (states : r.States s s')
    (agree : r.AgreesOn p p' ⟨.list (head :: parts), f, s⟩) :
    r.Outcomes s.frames.size (r.Nexts p p') (step p evaluator (.list (head :: parts)) f s)
      (step p' evaluator' (.list (head' :: parts')) (r.frame f) s') := by
  have form' : ∀ form : SpecialForm, head' ≠ .symbol form.name := fun other h =>
    form other ((first.eq_symbol_iff _).mpr h)
  rw [step_application parts form, step_application parts' form']
  refine (alike first made states (agree.part (.head form))).bind
    fun v w t t' hv grown states' hvw => ?_
  have start := follows.direct hv nofun
  rw [← hvw.isProcedure_eq]
  cases procedure : v.isProcedure with
  | false => exact .fault states' (.notProcedure first)
  | true =>
    rw [if_pos rfl, if_pos rfl]
    have arguments := evaluateAll_alike alike follows rest (made.trans_le grown) states'
      fun before e after vs u split given => by
        subst split
        exact agree.part (.argument form start procedure given)
    refine arguments.bind fun vs ws u u' hvs grown' states'' hvws => ?_
    have given : DirectAll p parts f t (.done vs u) := by
      rw [← hvs]
      exact follows.evaluateAll parts f t (by rw [hvs]; exact nofun)
    refine apply_alike (hvw.mono grown') hvws states'' procedure ?_ ?_
    · rintro operation xs start' before y after z rfl taken operands total
      exact agree operation z y (Task.Applies.step form start given taken operands total).calculates
    · rintro formals body c frame rfl made
      exact agree.part (.body form start given made)

/-! ## Steps and runs -/

/-- Like expressions take like steps. -/
theorem step_alike (alike : r.Evaluators p p' evaluator evaluator') (follows : Follows p evaluator)
    {e e' : Value} (code : r.Code e e') (made : f < s.frames.size) (states : r.States s s')
    (agree : r.AgreesOn p p' ⟨e, f, s⟩) :
    r.Outcomes s.frames.size (r.Nexts p p') (step p evaluator e f s)
      (step p' evaluator' e' (r.frame f) s') := by
  cases code with
  | number h => exact .value states (.number (r.number_of_literal h))
  | @symbol name shown =>
    have found := states.frames.value? made shown
    generalize hv : s.frames.value? f (.symbol name) = v,
      hw : s'.frames.value? (r.frame f) (.symbol name) = w at found
    cases found with
    | none =>
      rw [step, step, Action.bind_of_failed (Action.lookup_of_none hv),
        Action.bind_of_failed (Action.lookup_of_none hw)]
      exact .fault states (.refl _)
    | some values =>
      rw [step, step, Action.bind_of_done (Action.lookup_of_some hv),
        Action.bind_of_done (Action.lookup_of_some hw)]
      exact .value states values
  | form form codes => exact form_alike alike follows form codes made states agree
  | list codes =>
    cases codes with
    | nil => exact .fault states (.refl _)
    | @cons head head' parts parts' first rest =>
      -- A word that is not hidden may begin a form as well.
      by_cases word : ∃ form : SpecialForm, head = .symbol form.name
      · obtain ⟨form, rfl⟩ := word
        rw [(first.eq_symbol_iff _).mp rfl]
        exact form_alike alike follows form rest made states agree
      · exact application_alike alike follows (not_exists.mp word) first rest made states agree

/-- Like expressions are evaluated alike within every bound. -/
theorem evaluate_alike (r : Likeness) (p p' : Precision) (n : ℕ) :
    r.Evaluators p p' (evaluate p n) (evaluate p' n) := by
  induction n with
  | zero => exact fun _ _ _ _ => .unfinished
  | succ n ih =>
    intro e e' f s s' code made states agree
    have taken := step_alike ih (evaluate_follows p n) code made states agree
    rw [evaluate, evaluate]
    generalize step p (evaluate p n) e f s = o,
      step p' (evaluate p' n) e' (r.frame f) s' = o' at taken
    cases taken with
    | unfinished => exact .unfinished
    | failed grown states' alike => exact .failed grown states' alike
    | done grown states' next =>
      cases next with
      | value alike => exact .done grown states' alike
      | tail code' made' agree' => exact (ih code' made' states' agree').mono grown

end Steps

end Likeness

end DecimalLisp
