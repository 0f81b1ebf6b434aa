import DecimalLisp.Proofs.Evaluation.Steps
import Mathlib.Order.Filter.AtTopBot.Basic

/-!
# Direct-style evaluation

Evaluation in one piece, without expressions that are left over: a conditional evaluates
the branch that it chooses, and a call evaluates the body, each inside the evaluation of
the whole. It is stated by rules, one for each way in which an expression can end. Taking
steps until a value comes out ends exactly when the rules derive an ending, and then with
that ending: value or fault, frames and notes.
-/

namespace DecimalLisp

open Filter

mutual

/-- How an expression ends in a frame and a state, when evaluation has one piece. -/
inductive Direct (p : Precision) : Value → FrameId → State → Outcome Value → Prop where
  /-- A symbol means what the nearest frame binds it to. -/
  | bound {name : String} {f : FrameId} {s : State} {v : Value}
      (found : s.frames.value? f (.symbol name) = some v) :
      Direct p (.symbol name) f s (.done v s)
  /-- No frame binds the symbol. -/
  | unbound {name : String} {f : FrameId} {s : State}
      (missing : s.frames.value? f (.symbol name) = none) :
      Direct p (.symbol name) f s (.failed (.undefined (.symbol name)) s)
  /-- Numbers, procedures and embedded texts stand for themselves. -/
  | itself {v : Value} {f : FrameId} {s : State} (noSymbol : v.symbolName? = none)
      (noList : v.isList = false) : Direct p v f s (.done v s)
  /-- The empty list cannot be applied. -/
  | empty {f : FrameId} {s : State} :
      Direct p (.list []) f s (.failed (.notProcedure (.list [])) s)
  /-- Quoting the empty list gives it as it is. -/
  | quoteEmpty {f : FrameId} {s : State} :
      Direct p (.list [.symbol "quote", .list []]) f s (.done .nil s)
  /-- Quoting anything else gives the list of what is quoted. -/
  | quote {parts : List Value} {f : FrameId} {s : State} (other : parts ≠ [.list []]) :
      Direct p (.list (.symbol "quote" :: parts)) f s (.done (.list parts) s)
  /-- A conditional has a test and two branches. -/
  | ifParts {parts : List Value} {f : FrameId} {s : State} (count : parts.length ≠ 3) :
      Direct p (.list (.symbol "if" :: parts)) f s
        (.failed (.malformed .conditionalParts) s)
  /-- The test of a conditional fails. -/
  | ifFailed {test yes no : Value} {f : FrameId} {s s' : State} {fault : Fault}
      (asked : Direct p test f s (.failed fault s')) :
      Direct p (.list [.symbol "if", test, yes, no]) f s (.failed fault s')
  /-- The test holds, and the first branch is evaluated in the same frame. -/
  | ifTrue {test yes no v : Value} {f : FrameId} {s s' : State} {o : Outcome Value}
      (asked : Direct p test f s (.done v s')) (holds : v.isFalse = false)
      (chosen : Direct p yes f s' o) :
      Direct p (.list [.symbol "if", test, yes, no]) f s o
  /-- The test does not hold, and the second branch is evaluated in the same frame. -/
  | ifFalse {test yes no v : Value} {f : FrameId} {s s' : State} {o : Outcome Value}
      (asked : Direct p test f s (.done v s')) (fails : v.isFalse = true)
      (chosen : Direct p no f s' o) :
      Direct p (.list [.symbol "if", test, yes, no]) f s o
  /-- A definition has a name and an expression. -/
  | defineParts {parts : List Value} {f : FrameId} {s : State} (count : parts.length ≠ 2) :
      Direct p (.list (.symbol "define" :: parts)) f s
        (.failed (.malformed .definitionParts) s)
  /-- What is defined is no symbol. -/
  | defineName {name e : Value} {f : FrameId} {s : State}
      (other : name.symbolName? = none) :
      Direct p (.list [.symbol "define", name, e]) f s
        (.failed (.malformed (.definitionName name)) s)
  /-- The expression of a definition fails. -/
  | defineFailed {name : String} {e : Value} {f : FrameId} {s s' : State} {fault : Fault}
      (value : Direct p e f s (.failed fault s')) :
      Direct p (.list [.symbol "define", .symbol name, e]) f s (.failed fault s')
  /-- A definition binds its name in the frame and gives its expression as it is written. -/
  | define {name : String} {e v : Value} {f : FrameId} {s s' : State}
      (value : Direct p e f s (.done v s')) :
      Direct p (.list [.symbol "define", .symbol name, e]) f s
        (.done e { s' with frames := s'.frames.write f name v })
  /-- An assignment has a name and an expression. -/
  | assignParts {parts : List Value} {f : FrameId} {s : State} (count : parts.length ≠ 2) :
      Direct p (.list (.symbol "set!" :: parts)) f s
        (.failed (.malformed .assignmentParts) s)
  /-- What is assigned to is no symbol, and nothing is evaluated. -/
  | assignName {name e : Value} {f : FrameId} {s : State}
      (other : name.symbolName? = none) :
      Direct p (.list [.symbol "set!", name, e]) f s (.failed (.malformed .assignment) s)
  /-- The expression of an assignment fails. -/
  | assignFailed {name : String} {e : Value} {f : FrameId} {s s' : State} {fault : Fault}
      (value : Direct p e f s (.failed fault s')) :
      Direct p (.list [.symbol "set!", .symbol name, e]) f s (.failed fault s')
  /-- An assignment binds its name in the frame and is refused. -/
  | assign {name : String} {e v : Value} {f : FrameId} {s s' : State}
      (value : Direct p e f s (.done v s')) :
      Direct p (.list [.symbol "set!", .symbol name, e]) f s
        (.failed (.malformed .assignment) { s' with frames := s'.frames.write f name v })
  /-- A procedure has a list of parameters. -/
  | lambdaList {parts : List Value} {f : FrameId} {s : State}
      (other : ∀ formals bodies, parts ≠ .list formals :: bodies) :
      Direct p (.list (.symbol "lambda" :: parts)) f s
        (.failed (.malformed .parameterList) s)
  /-- A parameter is no symbol. -/
  | lambdaParameter {formals bodies : List Value} {other : Value} {f : FrameId} {s : State}
      (first : SpecialForm.firstNonSymbol? formals = some other) :
      Direct p (.list (.symbol "lambda" :: .list formals :: bodies)) f s
        (.failed (.notParameter other) s)
  /-- A procedure has a body. -/
  | lambdaEmpty {formals : List Value} {f : FrameId} {s : State}
      (symbols : SpecialForm.firstNonSymbol? formals = none) :
      Direct p (.list [.symbol "lambda", .list formals]) f s
        (.failed (.malformed .emptyBody) s)
  /-- A procedure keeps the frame that it is made in. -/
  | lambda {formals : List Value} {body : Value} {f : FrameId} {s : State}
      (symbols : SpecialForm.firstNonSymbol? formals = none) :
      Direct p (.list [.symbol "lambda", .list formals, body]) f s
        (.done (.lambda formals body f) s)
  /-- Further bodies are noted and not kept. -/
  | lambdaBodies {formals others : List Value} {body second : Value} {f : FrameId} {s : State}
      (symbols : SpecialForm.firstNonSymbol? formals = none) :
      Direct p (.list (.symbol "lambda" :: .list formals :: body :: second :: others)) f s
        (.done (.lambda formals body f)
          { s with log := s.log.push (.unusedBodies (others.length + 2)) })
  /-- The head of an application fails. -/
  | headFailed {head : Value} {parts : List Value} {f : FrameId} {s s' : State}
      {fault : Fault} (form : ∀ form : SpecialForm, head ≠ .symbol form.name)
      (start : Direct p head f s (.failed fault s')) :
      Direct p (.list (head :: parts)) f s (.failed fault s')
  /-- The head is no procedure, and no argument is evaluated. -/
  | headOther {head v : Value} {parts : List Value} {f : FrameId} {s s' : State}
      (form : ∀ form : SpecialForm, head ≠ .symbol form.name)
      (start : Direct p head f s (.done v s')) (other : v.isProcedure = false) :
      Direct p (.list (head :: parts)) f s (.failed (.notProcedure head) s')
  /-- An argument fails, and no later one is evaluated. -/
  | argumentFailed {head v : Value} {parts : List Value} {f : FrameId} {s s' s'' : State}
      {fault : Fault} (form : ∀ form : SpecialForm, head ≠ .symbol form.name)
      (start : Direct p head f s (.done v s')) (procedure : v.isProcedure = true)
      (given : DirectAll p parts f s' (.failed fault s'')) :
      Direct p (.list (head :: parts)) f s (.failed fault s'')
  /-- A builtin procedure gives its value at once. -/
  | builtin {head v : Value} {parts vs : List Value} {b : Builtin} {f : FrameId}
      {s s' s'' : State} (form : ∀ form : SpecialForm, head ≠ .symbol form.name)
      (start : Direct p head f s (.done (.builtin b) s'))
      (given : DirectAll p parts f s' (.done vs s'')) (gives : b.apply p vs = .ok v) :
      Direct p (.list (head :: parts)) f s (.done v s'')
  /-- A builtin procedure fails. -/
  | builtinFailed {head : Value} {parts vs : List Value} {b : Builtin} {f : FrameId}
      {s s' s'' : State} {fault : Fault}
      (form : ∀ form : SpecialForm, head ≠ .symbol form.name)
      (start : Direct p head f s (.done (.builtin b) s'))
      (given : DirectAll p parts f s' (.done vs s'')) (fails : b.apply p vs = .error fault) :
      Direct p (.list (head :: parts)) f s (.failed fault s'')
  /-- The arguments do not fit the parameters, and no frame is made. -/
  | callRefused {head body : Value} {parts vs formals : List Value} {c f : FrameId}
      {s s' s'' : State} {fault : Fault}
      (form : ∀ form : SpecialForm, head ≠ .symbol form.name)
      (start : Direct p head f s (.done (.lambda formals body c) s'))
      (given : DirectAll p parts f s' (.done vs s''))
      (refused : Frame.ofCall formals c vs = .error fault) :
      Direct p (.list (head :: parts)) f s (.failed fault s'')
  /-- The body of a procedure is evaluated in a fresh frame inside the one that the
  procedure was made in. -/
  | call {head body : Value} {parts vs formals : List Value} {c f : FrameId}
      {s s' s'' : State} {frame : Frame} {o : Outcome Value}
      (form : ∀ form : SpecialForm, head ≠ .symbol form.name)
      (start : Direct p head f s (.done (.lambda formals body c) s'))
      (given : DirectAll p parts f s' (.done vs s''))
      (made : Frame.ofCall formals c vs = .ok frame)
      (run : Direct p body s''.frames.size { s'' with frames := s''.frames.push frame } o) :
      Direct p (.list (head :: parts)) f s o

/-- How expressions end that are evaluated from left to right. -/
inductive DirectAll (p : Precision) :
    List Value → FrameId → State → Outcome (List Value) → Prop where
  /-- Nothing is left to evaluate. -/
  | nil {f : FrameId} {s : State} : DirectAll p [] f s (.done [] s)
  /-- The first expression fails. -/
  | firstFailed {e : Value} {rest : List Value} {f : FrameId} {s s' : State} {fault : Fault}
      (first : Direct p e f s (.failed fault s')) :
      DirectAll p (e :: rest) f s (.failed fault s')
  /-- A later expression fails. -/
  | restFailed {e v : Value} {rest : List Value} {f : FrameId} {s s' s'' : State}
      {fault : Fault} (first : Direct p e f s (.done v s'))
      (others : DirectAll p rest f s' (.failed fault s'')) :
      DirectAll p (e :: rest) f s (.failed fault s'')
  /-- All have values. -/
  | cons {e v : Value} {rest vs : List Value} {f : FrameId} {s s' s'' : State}
      (first : Direct p e f s (.done v s')) (others : DirectAll p rest f s' (.done vs s'')) :
      DirectAll p (e :: rest) f s (.done (v :: vs) s'')

end

/-- The rules derive endings only: a value or a fault. A branch and a body hand their
ending on, and every other rule names its own. -/
theorem Direct.ended {p : Precision} {e : Value} {f : FrameId} {s : State}
    {o : Outcome Value} : Direct p e f s o → o ≠ .unfinished
  | .ifTrue _ _ run | .ifFalse _ _ run | .call _ _ _ _ run => run.ended
  | .bound _ | .unbound _ | .itself _ _ | .empty | .quoteEmpty | .quote _ | .ifParts _
  | .ifFailed _ | .defineParts _ | .defineName _ | .defineFailed _ | .define _
  | .assignParts _ | .assignName _ | .assignFailed _ | .assign _ | .lambdaList _
  | .lambdaParameter _ | .lambdaEmpty _ | .lambda _ | .lambdaBodies _ | .headFailed _ _
  | .headOther _ _ _ | .argumentFailed _ _ _ _ | .builtin _ _ _ _ | .builtinFailed _ _ _ _
  | .callRefused _ _ _ _ => nofun

/-- What a step says about the ending of its expression: the ending itself, or an
expression that has all its endings. -/
def Leads (p : Precision) (e : Value) (f : FrameId) (s : State) : Outcome Next → Prop
  | .done (.value v) s' => Direct p e f s (.done v s')
  | .done (.tail e' f') s' => ∀ o, Direct p e' f' s' o → Direct p e f s o
  | .failed fault s' => Direct p e f s (.failed fault s')
  | .unfinished => True

/-- Applying a procedure leads where the rules say, once its arguments have values. -/
theorem leads_apply {p : Precision} {head v : Value} {parts vs : List Value} {f : FrameId}
    {s s' s'' : State}
    (form : ∀ form : SpecialForm, head ≠ .symbol form.name)
    (start : Direct p head f s (.done v s')) (procedure : v.isProcedure = true)
    (given : DirectAll p parts f s' (.done vs s'')) :
    Leads p (.list (head :: parts)) f s (applyProcedure p v vs s'') := by
  unfold applyProcedure
  split
  · next b =>
    cases hb : b.apply p vs with
    | ok v => exact .builtin form start given hb
    | error fault => exact .builtinFailed form start given hb
  · next formals body c =>
    cases hc : Frame.ofCall formals c vs with
    | ok frame => exact fun o run => .call form start given hc run
    | error fault => exact .callRefused form start given hc
  · cases v <;> simp_all [Value.isProcedure]

/-- An evaluator of parts whose every ending is derived by the rules. -/
def Follows (p : Precision) (evaluator : Evaluator) : Prop :=
  ∀ e f s, evaluator e f s ≠ .unfinished → Direct p e f s (evaluator e f s)

namespace Follows

variable {p : Precision} {evaluator : Evaluator} (h : Follows p evaluator)
include h

/-- An ending that the evaluator gives is derived. -/
theorem direct {e : Value} {f : FrameId} {s : State} {o : Outcome Value}
    (ho : evaluator e f s = o) (ended : o ≠ .unfinished) : Direct p e f s o := by
  subst ho
  exact h e f s ended

/-- Expressions evaluated one after the other end as the rules say. -/
theorem evaluateAll (es : List Value) (f : FrameId) (s : State)
    (ended : DecimalLisp.evaluateAll evaluator f es s ≠ .unfinished) :
    DirectAll p es f s (DecimalLisp.evaluateAll evaluator f es s) := by
  induction es generalizing s with
  | nil => exact .nil
  | cons e rest ih =>
    simp only [DecimalLisp.evaluateAll, Action.bind_apply, Action.pure_apply] at ended ⊢
    cases hv : evaluator e f s with
    | unfinished => simp [hv] at ended
    | failed fault s' => exact .firstFailed (h.direct hv (by simp))
    | done v s' =>
      have hr := ih s'
      simp only [hv] at ended ⊢
      cases hw : DecimalLisp.evaluateAll evaluator f rest s' with
      | unfinished => simp [hw] at ended
      | failed fault s'' =>
        rw [hw] at hr
        exact .restFailed (h.direct hv (by simp)) (hr (by simp))
      | done vs s'' =>
        rw [hw] at hr
        exact .cons (h.direct hv (by simp)) (hr (by simp))

/-- A step of a special form leads where the rules say. -/
theorem leads_form (form : SpecialForm) (parts : List Value) (f : FrameId) (s : State) :
    Leads p (.list (.symbol form.name :: parts)) f s (form.step evaluator f parts s) := by
  unfold SpecialForm.step
  split
  case h_1 => exact .quoteEmpty
  case h_2 other => exact .quote fun he => other he
  case h_3 test yes no =>
    simp only [Action.bind_apply, Action.pure_apply]
    cases hv : evaluator test f s with
    | unfinished => trivial
    | failed fault s' => exact .ifFailed (h.direct hv (by simp))
    | done v s' =>
      have asked := h.direct hv (by simp)
      intro o chosen
      cases truth : v.isFalse with
      | true => exact .ifFalse asked truth (by simpa [truth] using chosen)
      | false => exact .ifTrue asked truth (by simpa [truth] using chosen)
  case h_4 other =>
    refine .ifParts fun hl => ?_
    obtain ⟨test, yes, no, rfl⟩ := List.length_eq_three.mp hl
    exact other test yes no rfl
  case h_5 name e =>
    simp only [Action.bind_apply, Action.write_apply, Action.pure_apply]
    cases hv : evaluator e f s with
    | unfinished => trivial
    | failed fault s' => exact .defineFailed (h.direct hv (by simp))
    | done v s' => exact .define (h.direct hv (by simp))
  case h_6 name e other =>
    refine .defineName ?_
    cases name with
    | symbol word => exact absurd rfl (other word)
    | _ => rfl
  case h_7 named other =>
    refine .defineParts fun hl => ?_
    obtain ⟨name, e, rfl⟩ := List.length_eq_two.mp hl
    exact other name e rfl
  case h_8 name e =>
    simp only [Action.bind_apply, Action.write_apply, Action.fail_apply]
    cases hv : evaluator e f s with
    | unfinished => trivial
    | failed fault s' => exact .assignFailed (h.direct hv (by simp))
    | done v s' => exact .assign (h.direct hv (by simp))
  case h_9 name e other =>
    refine .assignName ?_
    cases name with
    | symbol word => exact absurd rfl (other word)
    | _ => rfl
  case h_10 named other =>
    refine .assignParts fun hl => ?_
    obtain ⟨name, e, rfl⟩ := List.length_eq_two.mp hl
    exact other name e rfl
  case h_11 formals bodies =>
    cases symbols : SpecialForm.firstNonSymbol? formals with
    | some other => exact .lambdaParameter symbols
    | none =>
      rcases bodies with _ | ⟨body, _ | ⟨second, others⟩⟩
      · exact .lambdaEmpty symbols
      · exact .lambda symbols
      · exact .lambdaBodies symbols
  case h_12 other => exact .lambdaList fun formals bodies he => other formals bodies he

/-- A step leads where the rules say. -/
theorem leads_step (e : Value) (f : FrameId) (s : State) :
    Leads p e f s (step p evaluator e f s) := by
  unfold step
  split
  case h_1 name =>
    simp only [Action.bind_apply, Action.lookup, Frames.lookup]
    cases hv : s.frames.value? f (.symbol name) with
    | some v => exact .bound hv
    | none => exact .unbound hv
  case h_2 => exact .empty
  case h_3 head parts =>
    cases hf : SpecialForm.ofHead? head with
    | some form =>
      rw [SpecialForm.ofHead?_eq_some_iff.mp hf]
      exact h.leads_form form parts f s
    | none =>
      have form : ∀ form : SpecialForm, head ≠ .symbol form.name := by
        intro form he
        rw [SpecialForm.ofHead?_eq_some_iff.mpr he] at hf
        simp at hf
      simp only [Action.bind_apply]
      cases hv : evaluator head f s with
      | unfinished => trivial
      | failed fault s' => exact .headFailed form (h.direct hv (by simp))
      | done v s' =>
        have start := h.direct hv (by simp)
        cases procedure : v.isProcedure with
        | false =>
          simp only [procedure, Bool.false_eq_true, if_false]
          exact Direct.headOther form start procedure
        | true =>
          have hr := h.evaluateAll parts f s'
          simp only [procedure, if_true, Action.bind_apply]
          cases hw : DecimalLisp.evaluateAll evaluator f parts s' with
          | unfinished => trivial
          | failed fault s'' =>
            rw [hw] at hr
            exact .argumentFailed form start procedure (hr (by simp))
          | done vs s'' =>
            rw [hw] at hr
            exact leads_apply form start procedure (hr (by simp))
  case h_4 noSymbol noEmpty noList =>
    refine .itself ?_ ?_
    · cases e with
      | symbol name => exact absurd rfl (noSymbol name)
      | _ => rfl
    · cases e with
      | list items =>
        cases items with
        | nil => exact absurd rfl noEmpty
        | cons head parts => exact absurd rfl (noList head parts)
      | _ => rfl

end Follows

/-- Whatever ends within a bound ends as the rules say. -/
theorem evaluate_follows (p : Precision) (n : ℕ) : Follows p (evaluate p n) := by
  induction n with
  | zero => exact fun e f s ended => absurd rfl ended
  | succ n ih =>
    intro e f s ended
    have hl := ih.leads_step e f s
    rw [evaluate] at ended ⊢
    split at ended
    · next v s' hs => rw [hs] at hl; exact hl
    · next e' f' s' hs =>
      rw [hs] at hl
      exact hl _ (ih e' f' s' ended)
    · next fault s' hs => rw [hs] at hl; exact hl
    · exact absurd rfl ended

/-- What a step leads to ends in a given way, within every large enough bound. -/
def Settles (p : Precision) (o : Outcome Value) : Outcome Next → Prop
  | .done (.value v) s => .done v s = o
  | .done (.tail e f) s => ∀ᶠ n in atTop, evaluate p n e f s = o
  | .failed fault s => .failed fault s = o
  | .unfinished => False

/-- Evaluation ends as its first step settles it. -/
theorem eventually_of_step {p : Precision} {e : Value} {f : FrameId} {s : State}
    {o : Outcome Value} (next : Outcome Next)
    (first : ∀ᶠ n in atTop, step p (evaluate p n) e f s = next) (settled : Settles p o next) :
    ∀ᶠ n in atTop, evaluate p n e f s = o := by
  rw [← map_add_atTop_eq_nat 1, eventually_map]
  cases next with
  | done next s' =>
    cases next with
    | value v =>
      filter_upwards [first] with n hn
      simpa [evaluate, hn, Settles] using settled
    | tail e' f' =>
      filter_upwards [first, settled] with n hn he
      simpa [evaluate, hn] using he
  | failed fault s' =>
    filter_upwards [first] with n hn
    simpa [evaluate, hn, Settles] using settled
  | unfinished => exact settled.elim

/-- A special form ends as its own step settles it. -/
theorem eventually_of_form {p : Precision} (form : SpecialForm) {parts : List Value}
    {f : FrameId} {s : State} {o : Outcome Value} (next : Outcome Next)
    (first : ∀ᶠ n in atTop, form.step (evaluate p n) f parts s = next)
    (settled : Settles p o next) :
    ∀ᶠ n in atTop, evaluate p n (.list (.symbol form.name :: parts)) f s = o :=
  eventually_of_step next (first.mono fun _ hn => (step_form form parts).trans hn) settled

/-- An application ends as the application of its head's value settles it. -/
theorem eventually_of_apply {p : Precision} {head v : Value} {parts vs : List Value}
    {f : FrameId} {s s' s'' : State} {o : Outcome Value}
    (form : ∀ form : SpecialForm, head ≠ .symbol form.name)
    (start : ∀ᶠ n in atTop, evaluate p n head f s = .done v s')
    (procedure : v.isProcedure = true)
    (given : ∀ᶠ n in atTop, evaluateAll (evaluate p n) f parts s' = .done vs s'')
    (settled : Settles p o (applyProcedure p v vs s'')) :
    ∀ᶠ n in atTop, evaluate p n (.list (head :: parts)) f s = o := by
  refine eventually_of_step _ ?_ settled
  filter_upwards [start, given] with n hn ha
  refine (congrFun (step_application parts form) s).trans ?_
  refine (Action.bind_of_done hn).trans ?_
  rw [if_pos procedure]
  exact Action.bind_of_done ha

mutual

/-- Every ending that the rules derive is reached within every large enough bound. -/
theorem Direct.eventually {p : Precision} {e : Value} {f : FrameId} {s : State}
    {o : Outcome Value} :
    Direct p e f s o → ∀ᶠ n in atTop, evaluate p n e f s = o
  | .bound found => by
    refine eventually_of_step (.done (.value _) _) (.of_forall fun _ => ?_) rfl
    exact Action.bind_of_done (Action.lookup_of_some found)
  | .unbound missing => by
    refine eventually_of_step (.failed _ _) (.of_forall fun _ => ?_) rfl
    exact Action.bind_of_failed (Action.lookup_of_none missing)
  | .itself noSymbol noList =>
    eventually_of_step (.done (.value _) _) (.of_forall fun _ => step_itself noSymbol noList) rfl
  | .empty => eventually_of_step (.failed _ _) (.of_forall fun _ => rfl) rfl
  | .quoteEmpty =>
    eventually_of_form .quote (.done (.value _) _) (.of_forall fun _ => rfl) rfl
  | .quote other =>
    eventually_of_form .quote (.done (.value _) _) (.of_forall fun _ => step_quote other) rfl
  | .ifParts count =>
    eventually_of_form .conditional (.failed _ _) (.of_forall fun _ => step_ifParts count) rfl
  | .ifFailed asked =>
    eventually_of_form .conditional (.failed _ _)
      (asked.eventually.mono fun _ hn => Action.bind_of_failed hn) rfl
  | .ifTrue asked holds chosen => by
    refine eventually_of_form .conditional (.done (.tail _ _) _) ?_ chosen.eventually
    filter_upwards [asked.eventually] with n hn
    refine (Action.bind_of_done hn).trans ?_
    rw [if_neg (by simp [holds]), Action.pure_apply]
  | .ifFalse asked fails chosen => by
    refine eventually_of_form .conditional (.done (.tail _ _) _) ?_ chosen.eventually
    filter_upwards [asked.eventually] with n hn
    refine (Action.bind_of_done hn).trans ?_
    rw [if_pos fails, Action.pure_apply]
  | .defineParts count =>
    eventually_of_form .define (.failed _ _) (.of_forall fun _ => step_defineParts count) rfl
  | .defineName other =>
    eventually_of_form .define (.failed _ _) (.of_forall fun _ => step_defineName other) rfl
  | .defineFailed value =>
    eventually_of_form .define (.failed _ _)
      (value.eventually.mono fun _ hn => Action.bind_of_failed hn) rfl
  | .define value =>
    eventually_of_form .define (.done (.value _) _)
      (value.eventually.mono fun _ hn => Action.bind_of_done hn) rfl
  | .assignParts count =>
    eventually_of_form .assign (.failed _ _) (.of_forall fun _ => step_assignParts count) rfl
  | .assignName other =>
    eventually_of_form .assign (.failed _ _) (.of_forall fun _ => step_assignName other) rfl
  | .assignFailed value =>
    eventually_of_form .assign (.failed _ _)
      (value.eventually.mono fun _ hn => Action.bind_of_failed hn) rfl
  | .assign value =>
    eventually_of_form .assign (.failed _ _)
      (value.eventually.mono fun _ hn => Action.bind_of_done hn) rfl
  | .lambdaList other =>
    eventually_of_form .lambda (.failed _ _) (.of_forall fun _ => step_lambdaList other) rfl
  | .lambdaParameter first =>
    eventually_of_form .lambda (.failed _ _) (.of_forall fun _ => step_lambdaParameter first) rfl
  | .lambdaEmpty symbols =>
    eventually_of_form .lambda (.failed _ _) (.of_forall fun _ => step_lambda [] symbols) rfl
  | .lambda symbols =>
    eventually_of_form .lambda (.done (.value _) _)
      (.of_forall fun _ => step_lambda [_] symbols) rfl
  | .lambdaBodies symbols =>
    eventually_of_form .lambda (.done (.value _) _)
      (.of_forall fun _ => step_lambda (_ :: _ :: _) symbols) rfl
  | .headFailed form start => by
    refine eventually_of_step (.failed _ _) (start.eventually.mono fun _ hn => ?_) rfl
    exact (congrFun (step_application _ form) s).trans (Action.bind_of_failed hn)
  | .headOther form start other => by
    refine eventually_of_step (.failed _ _) (start.eventually.mono fun _ hn => ?_) rfl
    refine (congrFun (step_application _ form) s).trans ((Action.bind_of_done hn).trans ?_)
    rw [if_neg (by simp [other]), Action.fail_apply]
  | .argumentFailed form start procedure given => by
    refine eventually_of_step (.failed _ _) ?_ rfl
    filter_upwards [start.eventually, given.eventually] with n hn ha
    refine (congrFun (step_application _ form) s).trans ((Action.bind_of_done hn).trans ?_)
    rw [if_pos procedure]
    exact Action.bind_of_failed ha
  | .builtin form start given gives =>
    eventually_of_apply form start.eventually rfl given.eventually
      (by simp [applyProcedure, gives, Settles])
  | .builtinFailed form start given fails =>
    eventually_of_apply form start.eventually rfl given.eventually
      (by simp [applyProcedure, fails, Settles])
  | .callRefused form start given refused =>
    eventually_of_apply form start.eventually rfl given.eventually
      (by simp [applyProcedure, refused, Settles])
  | .call form start given made run =>
    eventually_of_apply form start.eventually rfl given.eventually
      (by simpa [applyProcedure, made, Settles] using run.eventually)

/-- Every ending that the rules derive for several expressions is reached too. -/
theorem DirectAll.eventually {p : Precision} {es : List Value} {f : FrameId} {s : State}
    {o : Outcome (List Value)} :
    DirectAll p es f s o → ∀ᶠ n in atTop, evaluateAll (evaluate p n) f es s = o
  | .nil => .of_forall fun _ => rfl
  | .firstFailed first => first.eventually.mono fun _ hn => Action.bind_of_failed hn
  | .restFailed first others => by
    filter_upwards [first.eventually, others.eventually] with n hn ho
    exact (Action.bind_of_done hn).trans (Action.bind_of_failed ho)
  | .cons first others => by
    filter_upwards [first.eventually, others.eventually] with n hn ho
    exact (Action.bind_of_done hn).trans (Action.bind_of_done ho)

end

/-- Nothing ends in two ways. -/
theorem Direct.unique {p : Precision} {e : Value} {f : FrameId} {s : State} {o o' : Outcome Value}
    (h : Direct p e f s o) (h' : Direct p e f s o') : o = o' := by
  obtain ⟨n, hn, hn'⟩ := (h.eventually.and h'.eventually).exists
  exact hn.symm.trans hn'

theorem DirectAll.unique {p : Precision} {es : List Value} {f : FrameId} {s : State}
    {o o' : Outcome (List Value)} (h : DirectAll p es f s o) (h' : DirectAll p es f s o') :
    o = o' := by
  obtain ⟨n, hn, hn'⟩ := (h.eventually.and h'.eventually).exists
  exact hn.symm.trans hn'

/-- Some bound suffices for an ending that is derived, and the ending of any bound that
suffices is derived; so taking steps until a value comes out and evaluating in one piece
end for the same expressions, frames and states, and nothing ends in two ways. -/
theorem evaluate_ends_iff_direct (p : Precision) (e : Value) (f : FrameId) (s : State) :
    (∀ o, (o ≠ .unfinished ∧ ∃ n, evaluate p n e f s = o) ↔ Direct p e f s o) ∧
      ∀ o o', Direct p e f s o → Direct p e f s o' → o = o' := by
  refine ⟨fun o => ⟨?_, fun h => ⟨h.ended, h.eventually.exists⟩⟩, fun o o' h h' => h.unique h'⟩
  rintro ⟨ended, n, rfl⟩
  exact evaluate_follows p n e f s ended

end DecimalLisp
