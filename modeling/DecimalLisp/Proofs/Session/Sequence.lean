import DecimalLisp.Proofs.Evaluation.Notes
import DecimalLisp.Session

/-!
# Sequences

A sequence is an ordinary application of a builtin: what its expressions do in turn is done by the
evaluation of arguments, which stops at the first fault. The head is looked up before any of them,
so the expressions may bind its name to something else.
-/

namespace DecimalLisp

namespace Session

/-- Evaluates one expression after the other, each in the session that the one before it has left,
up to the first that fails. The last outcome is the outcome of all, with the notes of those before
it in front. -/
def evaluateInTurn (bound : ℕ) : Session → Value → List Value → Outcome Value
  | session, e, [] => session.evaluate bound e
  | session, e, next :: rest =>
    match session.evaluate bound e with
    | .done _ s => (evaluateInTurn bound (session.resume s) next rest).after s.log
    | .failed fault s => .failed fault s
    | .unfinished => .unfinished

end Session

/-! ## Arguments in turn -/

/-- A sequence gives the same for its arguments as for all but the first of several. -/
theorem Builtin.apply_sequence_cons (p : Precision) (v w : Value) (rest : List Value) :
    sequence.apply p (v :: w :: rest) = sequence.apply p (w :: rest) := by
  rw [apply, apply, last, last, List.getLast?_cons_cons]

section Evaluator

variable {p : Precision} {evaluator : Evaluator} {f : FrameId}

/-- Evaluates expressions and gives what a sequence gives for their values. -/
def lastOf (p : Precision) (evaluator : Evaluator) (f : FrameId) (es : List Value) :
    Action Value :=
  evaluateAll evaluator f es >>= fun vs => Action.ofResult (Builtin.sequence.apply p vs)

theorem lastOf_singleton (e : Value) : lastOf p evaluator f [e] = evaluator e f := by
  unfold lastOf
  rw [evaluateAll_cons, Action.bind_bind]
  exact Action.bind_give _

/-- The first of several expressions is evaluated for what it writes. -/
theorem lastOf_cons (e next : Value) (rest : List Value) :
    lastOf p evaluator f (e :: next :: rest) =
      evaluator e f >>= fun _ => lastOf p evaluator f (next :: rest) := by
  unfold lastOf
  simp only [evaluateAll_cons, Action.bind_bind, Action.give_bind, Builtin.apply_sequence_cons]

theorem lastOf_addsNotes (adds : ∀ e f, Action.AddsNotes (evaluator e f)) (es : List Value) :
    Action.AddsNotes (lastOf p evaluator f es) :=
  (evaluateAll_addsNotes adds f es).bind fun _ => .ofResult _

end Evaluator

namespace Session

/-- How the parts of an expression are evaluated in a session. -/
def evaluator (session : Session) (bound : ℕ) : Evaluator :=
  DecimalLisp.evaluate session.precision bound

/-- Arguments that are evaluated in the root frame are evaluated in turn. -/
theorem lastOf_eq_evaluateInTurn (session : Session) (bound : ℕ) (e : Value) (rest : List Value) :
    lastOf session.precision (session.evaluator bound) root (e :: rest) session.state =
      session.evaluateInTurn bound e rest := by
  induction rest generalizing session e with
  | nil => exact congrFun (lastOf_singleton e) session.state
  | cons next rest ih =>
    have here : session.evaluate bound e = session.evaluator bound e root session.state := rfl
    rw [lastOf_cons, Action.bind_apply, evaluateInTurn, here]
    cases session.evaluator bound e root session.state with
    | done v s =>
      -- The others are evaluated after the notes of the first, which they take no account of.
      have adds : Action.AddsNotes
          (lastOf session.precision (session.evaluator bound) root (next :: rest)) :=
        lastOf_addsNotes (evaluate_addsNotes session.precision bound) _
      have left : s = (session.resume s).state.after s.log := by
        rw [State.after, state, Array.append_empty]
        rfl
      calc lastOf session.precision (session.evaluator bound) root (next :: rest) s
        _ = (lastOf session.precision (session.evaluator bound) root (next :: rest)
              (session.resume s).state).after s.log := by rw [← adds, ← left]
        _ = ((session.resume s).evaluateInTurn bound next rest).after s.log :=
          congrArg (Outcome.after s.log) (ih (session.resume s) next)
    | failed fault s => rfl
    | unfinished => rfl

/-- A sequence is its expressions one after the other. Wherever the root frame of a session binds
the name of sequences to the builtin, a sequence ends in the root frame just as the evaluations of
its expressions in turn: with the value of the last one, or with the first fault and all that was
written before it, in the same frames and with the same notes. Within a bound that is larger by one
it ends if and only if they do. The expressions may bind the name to anything. -/
theorem sequence_evaluates_in_turn {session : Session}
    (bound : session.frames.value? root (.symbol "begin") = some (.builtin .sequence)) (n : ℕ)
    (e : Value) (rest : List Value) :
    session.evaluate (n + 1) (.list (.symbol "begin" :: e :: rest)) =
      session.evaluateInTurn n e rest := by
  have word : ∀ form : SpecialForm, "begin" ≠ form.name := by
    intro form
    cases form <;> decide
  cases n with
  | zero => cases rest <;> rfl
  | succ n =>
    have applied : session.evaluate (n + 2) (.list (.symbol "begin" :: e :: rest)) =
        lastOf session.precision (session.evaluator (n + 1)) root (e :: rest) session.state :=
      evaluate_builtin (s := session.state) word bound
    exact applied.trans (lastOf_eq_evaluateInTurn session (n + 1) e rest)

/-- The first expression binds the name of sequences to a procedure, with a note, and the others are
evaluated all the same, up to the one that fails. -/
theorem sequence_evaluates_in_turn_rebound :
    (Session.standard .standard).frames.value? root (.symbol "begin") =
        some (.builtin .sequence) ∧
      (Session.standard .standard).evaluate 4 (.list [.symbol "begin",
          .list [.symbol "define", .symbol "begin",
            .list [.symbol "lambda", .list [], .number (.ofNat 1), .number (.ofNat 2)]],
          .list [.symbol "define", .symbol "x", .symbol "begin"],
          .symbol "y",
          .list [.symbol "define", .symbol "z", .symbol "begin"]]) =
        .failed (.undefined (.symbol "y"))
          ⟨((Session.standard .standard).frames.write root "begin"
              (.lambda [] (.number (.ofNat 1)) root)).write root "x"
              (.lambda [] (.number (.ofNat 1)) root),
            #[.unusedBodies 2]⟩ := by
  have bound : (Session.standard .standard).frames.value? root (.symbol "begin") =
    some (.builtin .sequence) := rfl
  exact ⟨bound, (sequence_evaluates_in_turn bound 3 _ _).trans rfl⟩

end Session

end DecimalLisp
