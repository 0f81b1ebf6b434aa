import DecimalLisp.Proofs.Calculation
import DecimalLisp.Proofs.Evaluation.DirectStyle
import Mathlib.Logic.Relation

/-!
# Parts of an evaluation

What is evaluated on the way while an expression is evaluated, and from which state: the test
of a conditional and its chosen branch, the head and the arguments of an application, the body
of a procedure. A part is there whether or not its own evaluation, or that of the whole, comes
to an end. The arithmetic that is done in an evaluation is what its parts ask for.
-/

namespace DecimalLisp

/-- An expression that is to be evaluated in a frame, from a state on. -/
structure Task where
  /-- What is to be evaluated. -/
  expression : Value
  /-- Where. -/
  frame : FrameId
  /-- What there is when its evaluation begins. -/
  state : State

/-- What evaluation of an expression evaluates by itself. Each part begins in the state in which
the parts before it have ended. -/
inductive Part (p : Precision) : Task → Task → Prop where
  /-- The test of a conditional. -/
  | test {test yes no : Value} {f : FrameId} {s : State} :
      Part p ⟨.list [.symbol "if", test, yes, no], f, s⟩ ⟨test, f, s⟩
  /-- The branch that the test chooses. -/
  | branch {test yes no v : Value} {f : FrameId} {s s' : State}
      (asked : Direct p test f s (.done v s')) :
      Part p ⟨.list [.symbol "if", test, yes, no], f, s⟩
        ⟨if v.isFalse then no else yes, f, s'⟩
  /-- The expression of a definition. -/
  | define {name : String} {e : Value} {f : FrameId} {s : State} :
      Part p ⟨.list [.symbol "define", .symbol name, e], f, s⟩ ⟨e, f, s⟩
  /-- The expression of an assignment. -/
  | assign {name : String} {e : Value} {f : FrameId} {s : State} :
      Part p ⟨.list [.symbol "set!", .symbol name, e], f, s⟩ ⟨e, f, s⟩
  /-- The head of an application. -/
  | head {head : Value} {parts : List Value} {f : FrameId} {s : State}
      (form : ∀ form : SpecialForm, head ≠ .symbol form.name) :
      Part p ⟨.list (head :: parts), f, s⟩ ⟨head, f, s⟩
  /-- An argument, once the head is known to be a procedure. -/
  | argument {head v e : Value} {before after vs : List Value} {f : FrameId} {s s' s'' : State}
      (form : ∀ form : SpecialForm, head ≠ .symbol form.name)
      (start : Direct p head f s (.done v s')) (procedure : v.isProcedure = true)
      (given : DirectAll p before f s' (.done vs s'')) :
      Part p ⟨.list (head :: (before ++ e :: after)), f, s⟩ ⟨e, f, s''⟩
  /-- The body of the procedure that is called, in the frame of the call. -/
  | body {head body : Value} {parts vs formals : List Value} {c f : FrameId}
      {s s' s'' : State} {frame : Frame}
      (form : ∀ form : SpecialForm, head ≠ .symbol form.name)
      (start : Direct p head f s (.done (.lambda formals body c) s'))
      (given : DirectAll p parts f s' (.done vs s''))
      (made : Frame.ofCall formals c vs = .ok frame) :
      Part p ⟨.list (head :: parts), f, s⟩
        ⟨body, s''.frames.size, { s'' with frames := s''.frames.push frame }⟩

/-- Numbers stand for themselves. -/
theorem directAll_numbers (p : Precision) (xs : List Decimal) (f : FrameId) (s : State) :
    DirectAll p (xs.map .number) f s (.done (xs.map .number) s) := by
  induction xs with
  | nil => exact .nil
  | cons x xs ih => exact .cons (.itself rfl rfl) ih

/-- The only part of a definition is its expression. -/
theorem Part.of_define {p : Precision} {name : String} {e : Value} {f : FrameId} {s : State}
    {part : Task} (h : Part p ⟨.list [.symbol "define", .symbol name, e], f, s⟩ part) :
    part = ⟨e, f, s⟩ := by
  generalize whole : (⟨.list [.symbol "define", .symbol name, e], f, s⟩ : Task) = task at h
  cases h with
  | define =>
    cases whole
    rfl
  | test | branch _ | assign => simp at whole
  | head form | argument form _ _ _ | body form _ _ _ =>
    rw [Task.mk.injEq, Value.list.injEq, List.cons.injEq] at whole
    exact absurd whole.1.1.symm (form .define)

/-- Only lists have parts. -/
theorem Part.list {p : Precision} {task part : Task} (h : Part p task part) :
    ∃ items, task.expression = .list items := by
  cases h <;> exact ⟨_, rfl⟩

namespace Task

/-- The application of an arithmetic builtin whose fold comes to the step from `x` by `y`. -/
inductive Applies (p : Precision) : Task → Operation → Decimal → Decimal → Prop where
  | step {head : Value} {parts vs : List Value} {f : FrameId} {s s' s'' : State}
      {operation : Operation} {numbers before after : List Decimal} {start x y : Decimal}
      (form : ∀ form : SpecialForm, head ≠ .symbol form.name)
      (known : Direct p head f s (.done (.builtin (.arithmetic operation)) s'))
      (given : DirectAll p parts f s' (.done vs s''))
      (taken : Builtin.numbers vs = .ok numbers)
      (operands : operation.operands? numbers = some (start, before ++ y :: after))
      (total : operation.fold p start before = .ok x) :
      Applies p ⟨.list (head :: parts), f, s⟩ operation x y

/-- Evaluation of a task comes to a step of arithmetic: a builtin carries it out. -/
def Calculates (p : Precision) (task : Task) (operation : Operation) (x y : Decimal) : Prop :=
  ∃ part, Relation.ReflTransGen (Part p) task part ∧ part.Applies p operation x y

/-- What a part calculates is calculated by the whole. -/
theorem Calculates.of_part {p : Precision} {task part : Task} {operation : Operation}
    {x y : Decimal} (h : part.Calculates p operation x y) (first : Part p task part) :
    task.Calculates p operation x y := by
  obtain ⟨last, path, applies⟩ := h
  exact ⟨last, .head first path, applies⟩

/-- What the application itself asks for is calculated. -/
theorem Applies.calculates {p : Precision} {task : Task} {operation : Operation}
    {x y : Decimal} (h : task.Applies p operation x y) : task.Calculates p operation x y :=
  ⟨task, .refl, h⟩

/-- Only lists come to a step of arithmetic. -/
theorem Calculates.list {p : Precision} {task : Task} {operation : Operation} {x y : Decimal}
    (h : task.Calculates p operation x y) : ∃ items, task.expression = .list items := by
  obtain ⟨part, path, applies⟩ := h
  rcases path.cases_head with rfl | ⟨next, first, -⟩
  · cases applies
    exact ⟨_, rfl⟩
  · exact first.list

/-- What a definition calculates is calculated by its expression. -/
theorem Calculates.of_define {p : Precision} {name : String} {e : Value} {f : FrameId} {s : State}
    {operation : Operation} {x y : Decimal}
    (h : Task.Calculates p ⟨.list [.symbol "define", .symbol name, e], f, s⟩ operation x y) :
    Task.Calculates p ⟨e, f, s⟩ operation x y := by
  obtain ⟨part, path, applies⟩ := h
  rcases path.cases_head with rfl | ⟨next, first, rest⟩
  · cases applies with
    | step form _ _ _ _ _ => exact absurd rfl (form .define)
  · obtain rfl := first.of_define
    exact ⟨part, rest, applies⟩

/-- A builtin that is applied to expressions which are no lists calculates the steps of the fold
over their values and nothing else. -/
theorem Calculates.of_atoms {p : Precision} {name : String} {args vs : List Value}
    {xs : List Decimal} {f : FrameId} {s s' : State} {known operation : Operation} {x y : Decimal}
    (h : Task.Calculates p ⟨.list (.symbol name :: args), f, s⟩ operation x y)
    (atoms : ∀ e ∈ args, e.isList = false) (given : DirectAll p args f s (.done vs s'))
    (taken : Builtin.numbers vs = .ok xs) (word : SpecialForm.ofHead? (.symbol name) = none)
    (bound : s.frames.value? f (.symbol name) = some (.builtin (.arithmetic known))) :
    operation = known ∧ ∃ start before after,
      known.operands? xs = some (start, before ++ y :: after) ∧
        known.fold p start before = .ok x := by
  obtain ⟨part, path, applies⟩ := h
  rcases path.cases_head with rfl | ⟨next, first, rest⟩
  · cases applies with
    | step _ head given' taken' operands total =>
      cases head.unique (.bound bound)
      cases given'.unique given
      cases taken.symm.trans taken'
      exact ⟨rfl, _, _, _, operands, total⟩
  · -- The head and the arguments are no lists, and a builtin has no body.
    exfalso
    obtain ⟨items, listed⟩ := Calculates.list ⟨part, rest, applies⟩
    generalize whole : (⟨.list (.symbol name :: args), f, s⟩ : Task) = task at first
    cases first with
    | test | branch _ | define | assign =>
      cases whole
      cases word
    | head _ =>
      cases whole
      cases listed
    | @argument _ _ e before after =>
      cases whole
      have atom := atoms e (List.mem_append_right before List.mem_cons_self)
      rw [show e = .list items from listed] at atom
      cases atom
    | body _ start _ _ =>
      cases whole
      cases start.unique (.bound bound)

end Task

end DecimalLisp
