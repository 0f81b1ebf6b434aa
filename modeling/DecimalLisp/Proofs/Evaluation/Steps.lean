import DecimalLisp.Evaluation.Basic
import Mathlib.Data.List.Basic

/-!
# Equations of single steps

What an action does after another one, and what a step does with each kind of expression,
as equations that hold for every evaluator of the parts. Proofs about evaluation cite them
and do not open the step again. An outcome can also be held against a condition on its value
and a condition on its fault; what follows an action is then judged by the condition alone.
-/

namespace DecimalLisp

namespace Outcome

variable {α β : Type}

/-- A condition on how an action ends, if it ends: one for values and one for faults. -/
def All (done : α → State → Prop) (failed : Fault → State → Prop) : Outcome α → Prop
  | .done a s => done a s
  | .failed fault s => failed fault s
  | .unfinished => True

/-- The state in which an action ends. -/
def state? : Outcome α → Option State
  | .done _ s => some s
  | .failed _ s => some s
  | .unfinished => none

/-- Weaker conditions are met too. -/
theorem All.mono {done done' : α → State → Prop} {failed failed' : Fault → State → Prop}
    {o : Outcome α} (h : o.All done failed) (hd : ∀ a s, done a s → done' a s)
    (hf : ∀ fault s, failed fault s → failed' fault s) : o.All done' failed' := by
  cases o with
  | done a s => exact hd a s h
  | failed fault s => exact hf fault s h
  | unfinished => trivial

/-- A condition on states holds of the state in which an action ends. -/
theorem All.of_state? {P : State → Prop} {o : Outcome α} {s : State}
    (h : o.All (fun _ s => P s) (fun _ s => P s)) (hs : o.state? = some s) : P s := by
  cases o with
  | done a s' => cases hs; exact h
  | failed fault s' => cases hs; exact h
  | unfinished => cases hs

/-- What comes after an action meets a condition that its own condition leads to. -/
theorem All.bind {done : α → State → Prop} {done' : β → State → Prop}
    {failed : Fault → State → Prop} {first : Action α} {next : α → Action β} {s : State}
    (h : (first s).All done failed)
    (go : ∀ a s', done a s' → (next a s').All done' failed) :
    ((first >>= next) s).All done' failed := by
  rw [Action.bind_apply]
  cases hf : first s with
  | done a s' => rw [hf] at h; exact go a s' h
  | failed fault s' => rw [hf] at h; exact h
  | unfinished => trivial

end Outcome

namespace SpecialForm

/-- A form begins with its own word, and with nothing else. -/
theorem ofHead?_eq_some_iff {head : Value} {form : SpecialForm} :
    ofHead? head = some form ↔ head = .symbol form.name := by
  constructor
  · intro h
    cases head with
    | symbol word =>
      have hw := List.find?_some h
      rw [beq_iff_eq] at hw
      rw [hw]
    | _ => simp [ofHead?] at h
  · rintro rfl
    cases form <;> decide

/-- A value that is the word of no form begins none. -/
theorem ofHead?_eq_none {head : Value} (h : ∀ form : SpecialForm, head ≠ .symbol form.name) :
    ofHead? head = none := by
  cases hf : ofHead? head with
  | none => rfl
  | some form => exact absurd (ofHead?_eq_some_iff.mp hf) (h form)

/-- Parameters among which there is nothing but symbols are their names as symbols. -/
theorem exists_names {formals : List Value} (symbols : firstNonSymbol? formals = none) :
    ∃ names : List String, formals = names.map Value.symbol := by
  induction formals with
  | nil => exact ⟨[], rfl⟩
  | cons first rest ih =>
    rw [firstNonSymbol?, List.find?_cons] at symbols
    cases first with
    | symbol name =>
      obtain ⟨names, rfl⟩ := ih symbols
      exact ⟨name :: names, rfl⟩
    | _ => cases symbols

end SpecialForm

namespace Action

/-- What comes after an action that has a value. -/
theorem bind_of_done {α β : Type} {first : Action α} {next : α → Action β} {a : α}
    {s s' : State} (h : first s = .done a s') : (first >>= next) s = next a s' := by
  rw [bind_apply, h]

/-- Nothing comes after an action that fails. -/
theorem bind_of_failed {α β : Type} {first : Action α} {next : α → Action β} {fault : Fault}
    {s s' : State} (h : first s = .failed fault s') : (first >>= next) s = .failed fault s' := by
  rw [bind_apply, h]

/-- A name that is bound has its value. -/
theorem lookup_of_some {f : FrameId} {name v : Value} {s : State}
    (h : s.frames.value? f name = some v) : lookup f name s = .done v s := by
  simp only [lookup, Frames.lookup, h]

/-- A name that is not bound is a fault. -/
theorem lookup_of_none {f : FrameId} {name : Value} {s : State}
    (h : s.frames.value? f name = none) :
    lookup f name s = .failed (.undefined name) s := by
  simp only [lookup, Frames.lookup, h]

/-- Doing nothing after an action changes nothing. -/
theorem bind_give {α : Type} (action : Action α) : (action >>= fun a => pure a) = action := by
  funext s
  rw [bind_apply]
  cases action s <;> rfl

/-- Actions that follow one another may be grouped in any way. -/
theorem bind_bind {α β γ : Type} (first : Action α) (next : α → Action β) (last : β → Action γ) :
    first >>= next >>= last = first >>= fun a => next a >>= last := by
  funext s
  simp only [bind_apply]
  cases first s <;> rfl

theorem give_bind {α β : Type} (a : α) (next : α → Action β) : pure a >>= next = next a := rfl

end Action

/-- Goes on from the place that a step has led to until there is a value. -/
def Next.finish (p : Precision) (bound : ℕ) : Next → Action Value
  | .value v => pure v
  | .tail e f => evaluate p bound e f

/-- Evaluation takes a step and goes on from the place that it has led to. -/
theorem evaluate_succ (p : Precision) (n : ℕ) (e : Value) (f : FrameId) :
    evaluate p (n + 1) e f = step p (evaluate p n) e f >>= Next.finish p n := by
  funext s
  rw [evaluate, Action.bind_apply]
  cases step p (evaluate p n) e f s with
  | done next s' => cases next <;> rfl
  | failed fault s' => rfl
  | unfinished => rfl

section Steps

variable {p : Precision} {evaluator : Evaluator} {f : FrameId} {s s' s'' : State}

/-- A form's step is what the expression that begins with its word does. -/
theorem step_form (form : SpecialForm) (parts : List Value) :
    step p evaluator (.list (.symbol form.name :: parts)) f s =
      form.step evaluator f parts s := by
  cases form <;> rfl

theorem step_quote {parts : List Value} (other : parts ≠ [.list []]) :
    SpecialForm.quote.step evaluator f parts s = .done (.value (.list parts)) s := by
  rw [SpecialForm.step]
  · rfl
  · exact other

theorem step_ifParts {parts : List Value} (count : parts.length ≠ 3) :
    SpecialForm.conditional.step evaluator f parts s =
      .failed (.malformed .conditionalParts) s := by
  rcases parts with _ | ⟨test, _ | ⟨yes, _ | ⟨no, _ | ⟨more, rest⟩⟩⟩⟩
  · rfl
  · rfl
  · rfl
  · exact absurd rfl count
  · rfl

theorem step_defineParts {parts : List Value} (count : parts.length ≠ 2) :
    SpecialForm.define.step evaluator f parts s = .failed (.malformed .definitionParts) s := by
  rcases parts with _ | ⟨name, _ | ⟨value, _ | ⟨more, rest⟩⟩⟩
  · rfl
  · cases name <;> rfl
  · exact absurd rfl count
  · cases name <;> rfl

theorem step_assignParts {parts : List Value} (count : parts.length ≠ 2) :
    SpecialForm.assign.step evaluator f parts s = .failed (.malformed .assignmentParts) s := by
  rcases parts with _ | ⟨name, _ | ⟨value, _ | ⟨more, rest⟩⟩⟩
  · rfl
  · cases name <;> rfl
  · exact absurd rfl count
  · cases name <;> rfl

theorem step_lambdaList {parts : List Value}
    (other : ∀ formals bodies, parts ≠ .list formals :: bodies) :
    SpecialForm.lambda.step evaluator f parts s = .failed (.malformed .parameterList) s := by
  rw [SpecialForm.step]
  · rfl
  · exact other

theorem step_lambdaParameter {formals bodies : List Value} {other : Value}
    (first : SpecialForm.firstNonSymbol? formals = some other) :
    SpecialForm.lambda.step evaluator f (.list formals :: bodies) s =
      .failed (.notParameter other) s := by
  simp only [SpecialForm.step, first, Action.fail_apply]

/-- A procedure is made of parameters and the first of its bodies. -/
theorem step_lambda {formals : List Value} (bodies : List Value)
    (symbols : SpecialForm.firstNonSymbol? formals = none) :
    SpecialForm.lambda.step evaluator f (.list formals :: bodies) s =
      match bodies with
      | [] => .failed (.malformed .emptyBody) s
      | [body] => .done (.value (.lambda formals body f)) s
      | body :: _ :: _ => .done (.value (.lambda formals body f))
          { s with log := s.log.push (.unusedBodies bodies.length) } := by
  rcases bodies with _ | ⟨body, _ | ⟨second, rest⟩⟩
  all_goals
    simp only [SpecialForm.step, symbols]
    rfl

theorem step_defineName {name e : Value} (other : name.symbolName? = none) :
    SpecialForm.define.step evaluator f [name, e] s =
      .failed (.malformed (.definitionName name)) s := by
  cases name with
  | symbol word => cases other
  | _ => rfl

theorem step_assignName {name e : Value} (other : name.symbolName? = none) :
    SpecialForm.assign.step evaluator f [name, e] s = .failed (.malformed .assignment) s := by
  cases name with
  | symbol word => cases other
  | _ => rfl

theorem step_itself {v : Value} (noSymbol : v.symbolName? = none) (noList : v.isList = false) :
    step p evaluator v f s = .done (.value v) s := by
  cases v with
  | symbol word => cases noSymbol
  | list items => cases noList
  | _ => rfl

/-- An application evaluates its head, then its arguments, and then applies. -/
theorem step_application {head : Value} (parts : List Value)
    (form : ∀ form : SpecialForm, head ≠ .symbol form.name) :
    step p evaluator (.list (head :: parts)) f =
      evaluator head f >>= fun v =>
        if v.isProcedure then evaluateAll evaluator f parts >>= applyProcedure p v
        else Action.fail (.notProcedure head) := by
  have none : SpecialForm.ofHead? head = none := SpecialForm.ofHead?_eq_none form
  rw [step, none]

/-- Expressions are evaluated one after the other. -/
theorem evaluateAll_cons (e : Value) (rest : List Value) :
    evaluateAll evaluator f (e :: rest) =
      evaluator e f >>= fun v => evaluateAll evaluator f rest >>= fun vs => pure (v :: vs) := rfl

/-! ## Evaluation by steps -/

variable {n : ℕ} {name : String} {v : Value}

/-- A bound name is evaluated to its value. -/
theorem evaluate_symbol (n : ℕ) (bound : s.frames.value? f (.symbol name) = some v) :
    evaluate p (n + 1) (.symbol name) f s = .done v s := by
  have found : step p (evaluate p n) (.symbol name) f s = .done (.value v) s :=
    Action.bind_of_done (Action.lookup_of_some bound)
  rw [evaluate_succ]
  exact Action.bind_of_done found

/-- A form goes on from where its step has led to. -/
theorem evaluate_form_of_done (form : SpecialForm) {parts : List Value} {next : Next}
    (stepped : form.step (evaluate p n) f parts s = .done next s') :
    evaluate p (n + 1) (.list (.symbol form.name :: parts)) f s = next.finish p n s' := by
  rw [evaluate_succ]
  exact Action.bind_of_done ((step_form form parts).trans stepped)

/-- A form whose step fails has failed. -/
theorem evaluate_form_of_failed (form : SpecialForm) {parts : List Value} {fault : Fault}
    (stepped : form.step (evaluate p n) f parts s = .failed fault s') :
    evaluate p (n + 1) (.list (.symbol form.name :: parts)) f s = .failed fault s' := by
  rw [evaluate_succ]
  exact Action.bind_of_failed ((step_form form parts).trans stepped)

/-- A conditional whose test has a value goes on with a branch in place of itself. -/
theorem evaluate_conditional {test yes no : Value} (asked : evaluate p n test f s = .done v s') :
    evaluate p (n + 1) (.list [.symbol "if", test, yes, no]) f s =
      evaluate p n (if v.isFalse then no else yes) f s' := by
  have chosen : SpecialForm.conditional.step (evaluate p n) f [test, yes, no] s =
      .done (.tail (if v.isFalse then no else yes) f) s' :=
    Action.bind_of_done asked
  exact evaluate_form_of_done .conditional chosen

/-- An application of a builtin to which a name is bound evaluates the arguments and gives what the
builtin makes of them. What the arguments write to the name is of no account. -/
theorem evaluate_builtin {b : Builtin} {es : List Value}
    (word : ∀ form : SpecialForm, name ≠ form.name)
    (bound : s.frames.value? f (.symbol name) = some (.builtin b)) :
    evaluate p (n + 2) (.list (.symbol name :: es)) f s =
      (evaluateAll (evaluate p (n + 1)) f es >>= fun vs => Action.ofResult (b.apply p vs)) s := by
  have form : ∀ form : SpecialForm, Value.symbol name ≠ .symbol form.name :=
    fun form same => word form (Value.symbol.inj same)
  have applied : step p (evaluate p (n + 1)) (.list (.symbol name :: es)) f s =
      (evaluateAll (evaluate p (n + 1)) f es >>= applyProcedure p (.builtin b)) s :=
    (congrFun (step_application es form) s).trans (Action.bind_of_done (evaluate_symbol n bound))
  rw [evaluate_succ, Action.bind_apply, applied, Action.bind_apply, Action.bind_apply]
  cases evaluateAll (evaluate p (n + 1)) f es s with
  | done vs s' =>
    simp only [applyProcedure, Action.bind_apply]
    cases b.apply p vs <;> rfl
  | failed fault s' => rfl
  | unfinished => rfl

/-- Within a larger bound an expression can be evaluated as a part, and it ends alike. -/
theorem exists_evaluate_eq_of_lt {larger : ℕ} (h : n < larger) {e : Value}
    (ends : evaluate p n e f s ≠ .unfinished) :
    ∃ m, larger = m + 1 ∧ evaluate p m e f s = evaluate p n e f s := by
  obtain ⟨m, rfl⟩ := Nat.exists_eq_add_one_of_ne_zero (Nat.ne_zero_of_lt h)
  exact ⟨m, rfl, evaluate_eq_of_le (Nat.le_of_lt_succ h) ends⟩

/-- Expressions that are all evaluated within a bound are evaluated alike within a larger one. -/
theorem evaluateAll_eq_of_le {larger : ℕ} (h : n ≤ larger) {es : List Value}
    (ends : evaluateAll (evaluate p n) f es s ≠ .unfinished) :
    evaluateAll (evaluate p larger) f es s = evaluateAll (evaluate p n) f es s := by
  induction h with
  | refl => rfl
  | @step m _ ih =>
    rw [← ih] at ends ⊢
    exact ((evaluateAll_approximates (evaluate_approximates_succ p m) es).eq_of_ends ends).symm

end Steps

end DecimalLisp
