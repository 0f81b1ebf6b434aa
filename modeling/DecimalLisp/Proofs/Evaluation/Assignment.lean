import DecimalLisp.Proofs.Evaluation.FrameLaw
import DecimalLisp.Proofs.Evaluation.Moments
import DecimalLisp.Session

/-!
# Assignment

An assignment does all that a definition does: it evaluates its expression and binds the name in the
frame at hand. Then it fails. A fault is handed on by everything that waits for a value, so an
evaluation that gives a value has not entered an assignment at any of its moments, however deep.
-/

namespace DecimalLisp

namespace Frames

/-- All that changes is what one frame binds a name to. A name that is new there comes after the
others. -/
structure BoundIn (f : FrameId) (name : String) (v : Value) (before after : Frames) : Prop where
  /-- There are no more frames, and no fewer. -/
  size : after.size = before.size
  /-- The other frames stay just as they are. -/
  others : ∀ i, i ≠ f → after.frame? i = before.frame? i
  /-- The frame stays inside the same frame. -/
  outer : after.outer? f = before.outer? f
  /-- The name has the value. -/
  value : (after.bindings f).value? name = some v
  /-- Other names keep theirs. -/
  kept : ∀ other, other ≠ name → (after.bindings f).value? other = (before.bindings f).value? other
  /-- The names keep their places. -/
  names : (after.bindings f).names =
    if name ∈ (before.bindings f).names then (before.bindings f).names
    else (before.bindings f).names ++ [name]

/-- Writing in a frame that there is binds the name in it and does nothing else. -/
theorem boundIn_write {f : FrameId} {frames : Frames} (made : f < frames.size) (name : String)
    (v : Value) : frames.BoundIn f name v (frames.write f name v) := by
  have here : (frames.write f name v).bindings f = (frames.bindings f).write name v := by
    rw [bindings_write frames f f name v made, if_pos rfl]
  refine ⟨frames.size_rebind f _, fun i other => ?_, frames.outer?_rebind f f _, ?_, ?_, ?_⟩
  · rw [write, frame?_rebind, if_neg other]
  · rw [here, Bindings.value?_write, if_pos rfl]
  · intro other apart
    rw [here, Bindings.value?_write, if_neg apart]
  · rw [here, Bindings.names_write]

end Frames

section Forms

variable {p : Precision} {n : ℕ} {e v : Value} {f : FrameId} {s s' : State}

/-- The state after a name was bound in a frame. -/
def State.bound (s : State) (f : FrameId) (name : String) (v : Value) : State :=
  { s with frames := s.frames.write f name v }

/-- Definitions and assignments of an expression that has a value bind the name to it. -/
theorem evaluate_binding_of_done (name : String) (asked : evaluate p n e f s = .done v s') :
    evaluate p (n + 1) (.list [.symbol "define", .symbol name, e]) f s =
        .done e (s'.bound f name v) ∧
      evaluate p (n + 1) (.list [.symbol "set!", .symbol name, e]) f s =
        .failed (.malformed .assignment) (s'.bound f name v) := by
  have defined : SpecialForm.define.step (evaluate p n) f [.symbol name, e] s =
      .done (.value e) (s'.bound f name v) := Action.bind_of_done asked
  have assigned : SpecialForm.assign.step (evaluate p n) f [.symbol name, e] s =
      .failed (.malformed .assignment) (s'.bound f name v) := Action.bind_of_done asked
  exact ⟨evaluate_form_of_done .define defined, evaluate_form_of_failed .assign assigned⟩

/-- Definitions and assignments of an expression that fails do no more. -/
theorem evaluate_binding_of_failed (name : String) {fault : Fault}
    (asked : evaluate p n e f s = .failed fault s') :
    evaluate p (n + 1) (.list [.symbol "define", .symbol name, e]) f s = .failed fault s' ∧
      evaluate p (n + 1) (.list [.symbol "set!", .symbol name, e]) f s = .failed fault s' := by
  have defined : SpecialForm.define.step (evaluate p n) f [.symbol name, e] s =
      .failed fault s' := Action.bind_of_failed asked
  have assigned : SpecialForm.assign.step (evaluate p n) f [.symbol name, e] s =
      .failed fault s' := Action.bind_of_failed asked
  exact ⟨evaluate_form_of_failed .define defined, evaluate_form_of_failed .assign assigned⟩

/-- The step of an assignment leads nowhere, whatever its parts are. -/
theorem assign_step_ne_done (evaluator : Evaluator) (f : FrameId) (parts : List Value)
    (s s' : State) (next : Next) : SpecialForm.assign.step evaluator f parts s ≠ .done next s' := by
  intro leads
  by_cases count : parts.length = 2
  · obtain ⟨target, e, rfl⟩ := List.length_eq_two.mp count
    cases word : target.symbolName? with
    | none =>
      rw [step_assignName word] at leads
      cases leads
    | some name =>
      cases target with
      | symbol name =>
        rw [SpecialForm.step, Action.bind_apply] at leads
        cases asked : evaluator e f s <;> rw [asked] at leads <;> cases leads
      | _ => cases word
  · rw [step_assignParts count] at leads
    cases leads

/-- No assignment gives a value. -/
theorem evaluate_assign_ne_done (p : Precision) (n : ℕ) (parts : List Value) (f : FrameId)
    (s s' : State) (v : Value) :
    evaluate p n (.list (.symbol "set!" :: parts)) f s ≠ .done v s' := by
  cases n with
  | zero => exact nofun
  | succ n =>
    intro gives
    have steps : step p (evaluate p n) (.list (.symbol "set!" :: parts)) f s =
        SpecialForm.assign.step (evaluate p n) f parts s :=
      step_form .assign parts
    rw [evaluate_succ, Action.bind_apply, steps] at gives
    cases stepped : SpecialForm.assign.step (evaluate p n) f parts s with
    | done next s'' => exact assign_step_ne_done _ _ _ _ _ _ stepped
    | _ =>
      rw [stepped] at gives
      cases gives

/-- An evaluation that gives a value enters no assignment at any of its moments. -/
theorem no_assignment_of_done (gives : evaluate p n e f s = .done v s') {m : Moment}
    (reached : Moment.Reaches p ⟨.enter e f, [], s⟩ m) (parts : List Value) (g : FrameId) :
    m.event ≠ .enter (.list (.symbol "set!" :: parts)) g := by
  intro entered
  obtain ⟨k, onward⟩ := Moment.run_of_evaluate (o := .done v s') rfl ⟨n, gives⟩ reached
  rw [Moment.run, Action.bind_apply, entered] at onward
  cases assigned : Event.run p k (.enter (.list (.symbol "set!" :: parts)) g) m.state with
  | done w s'' => exact evaluate_assign_ne_done _ _ _ _ _ _ _ assigned
  | _ =>
    rw [assigned] at onward
    cases onward

end Forms

/-- An assignment is a definition that fails in the end. From one state both leave the same frames
and notes. Where the expression fails, both fail like it and have written nothing of their own.
Where it has a value, both bind the name to it in the frame at hand, after all that the expression
has written; the definition gives the expression, and the assignment fails. So no evaluation that
gives a value has entered an assignment. -/
theorem assignment_defines_and_fails {p : Precision} {k : ℕ} {e : Value} {f : FrameId} {s : State}
    (made : f < s.frames.size) :
    (∀ name fault s', evaluate p k e f s = .failed fault s' → ∀ n > k,
      evaluate p n (.list [.symbol "define", .symbol name, e]) f s = .failed fault s' ∧
        evaluate p n (.list [.symbol "set!", .symbol name, e]) f s = .failed fault s') ∧
      (∀ name v s', evaluate p k e f s = .done v s' → ∀ n > k, ∃ fault s'',
        evaluate p n (.list [.symbol "define", .symbol name, e]) f s = .done e s'' ∧
          evaluate p n (.list [.symbol "set!", .symbol name, e]) f s = .failed fault s'' ∧
          fault.kind = .malformed ∧ fault.message = "Bad syntax: set!" ∧
          s'.frames.BoundIn f name v s''.frames ∧ s''.log = s'.log) ∧
      ∀ v s', evaluate p k e f s = .done v s' →
        ∀ m parts g, Moment.Reaches p ⟨.enter e f, [], s⟩ m →
          m.event ≠ .enter (.list (.symbol "set!" :: parts)) g := by
  refine ⟨?_, ?_, fun v s' gives m parts g reached => no_assignment_of_done gives reached parts g⟩
  · intro name fault s' fails n more
    obtain ⟨n', rfl, same⟩ := exists_evaluate_eq_of_lt more (by rw [fails]; nofun)
    exact evaluate_binding_of_failed name (same.trans fails)
  · intro name v s' gives n more
    obtain ⟨n', rfl, same⟩ := exists_evaluate_eq_of_lt more (by rw [gives]; nofun)
    obtain ⟨defined, assigned⟩ := evaluate_binding_of_done name (same.trans gives)
    have there : f < s'.frames.size := by
      have kept := evaluate_keepsToFrame p k e f s
      rw [gives] at kept
      exact made.trans_le kept.size_le
    exact ⟨_, _, defined, assigned, rfl, rfl, Frames.boundIn_write there name v, rfl⟩

/-- Where the expression itself defines the name, the value of the whole expression comes last. A
symbol that is not bound is the fault of definition and assignment alike. -/
theorem assignment_defines_and_fails_twice :
    let s : State := (Session.standard .standard).state
    let inner : Value := .list [.symbol "define", .symbol "y", .number (.ofNat 3)]
    let e : Value := .list [.symbol "begin", inner, .number (.ofNat 7)]
    let s' : State := s.bound Session.root "y" (.number (.ofNat 3))
    Session.root < s.frames.size ∧
      evaluate .standard 3 e Session.root s = .done (.number (.ofNat 7)) s' ∧
      (∃ fault s'', evaluate .standard 4 (.list [.symbol "define", .symbol "y", e]) Session.root s =
            .done e s'' ∧
          evaluate .standard 4 (.list [.symbol "set!", .symbol "y", e]) Session.root s =
            .failed fault s'' ∧ fault.message = "Bad syntax: set!" ∧
          s'.frames.BoundIn Session.root "y" (.number (.ofNat 7)) s''.frames) ∧
      Moment.Reaches .standard ⟨.enter e Session.root, [], s⟩ ⟨.enter inner Session.root,
        [⟨Session.root, .argument (.builtin .sequence) [] [.number (.ofNat 7)]⟩], s⟩ ∧
      (∀ parts, Event.enter inner Session.root ≠ .enter (.list (.symbol "set!" :: parts)) 0) ∧
      evaluate .standard 1 (.symbol "z") Session.root s = .failed (.undefined (.symbol "z")) s ∧
      evaluate .standard 2 (.list [.symbol "set!", .symbol "y", .symbol "z"]) Session.root s =
        .failed (.undefined (.symbol "z")) s := by
  intro s inner e s'
  have made : Session.root < s.frames.size := by decide
  have gives : evaluate .standard 3 e Session.root s = .done (.number (.ofNat 7)) s' := rfl
  have fails : evaluate .standard 1 (.symbol "z") Session.root s =
    .failed (.undefined (.symbol "z")) s := rfl
  have reached : Moment.Reaches .standard ⟨.enter e Session.root, [], s⟩ ⟨.enter inner Session.root,
      [⟨Session.root, .argument (.builtin .sequence) [] [.number (.ofNat 7)]⟩], s⟩ :=
    .head rfl (.head rfl (.head rfl .refl))
  obtain ⟨-, binds, enters⟩ := @assignment_defines_and_fails .standard 3 e _ s made
  obtain ⟨fault, s'', defined, assigned, -, message, bound, -⟩ :=
    binds "y" _ s' gives 4 (by decide)
  have unbound := @assignment_defines_and_fails .standard 1 (.symbol "z") _ s made
  exact ⟨made, gives, ⟨fault, s'', defined, assigned, message, bound⟩, reached,
    fun parts => enters _ s' gives _ parts 0 reached, fails,
    (unbound.1 "y" _ s fails 2 (by decide)).2⟩

end DecimalLisp
