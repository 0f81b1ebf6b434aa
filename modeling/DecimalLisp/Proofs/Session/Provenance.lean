import DecimalLisp.Proofs.Evaluation.Calls
import DecimalLisp.Proofs.Session.Upkeep

/-!
# Provenance of code

Code and data are of one kind, and a definition gives back code as data. Yet no program makes code:
whatever a session enters stands in a text that it has run, and the parameters and the body of a
procedure stand there in the form that made it. A value that is given is never entered. What is
entered after it is code that has waited for it, or the body of a procedure that is applied.
-/

namespace DecimalLisp

open Reader Moment

/-- A value is bound in some frame. -/
def Frames.Binds (frames : Frames) (v : Value) : Prop :=
  ∃ i name, (name, v) ∈ frames.bindings i

/-- What is entered after a value was given has waited for it, or is the body of a procedure that
is in hand. -/
theorem Moment.entered_after_given {p : Precision} {m m' : Moment} {v e : Value} {f : FrameId}
    (given : m.event = .give v) (h : m.next? p = some m') (entered : m'.event = .enter e f) :
    ∃ a ∈ m.active.head?, e ∈ a.pending.code ∨
      ∃ formals c, .lambda formals e c ∈ v :: a.pending.inHand := by
  obtain ⟨a, innermost, waited | ⟨formals, c, applied⟩⟩ := m.entered_after_value given h entered
  · exact ⟨a, innermost, .inl waited⟩
  · refine ⟨a, innermost, .inr ⟨formals, c, applied_mem ?_⟩⟩
    rw [← applied, applied?, given]
    cases active : m.active <;> rw [active] at innermost <;> cases innermost
    rfl

/-- Whatever texts a session on a fresh root frame has run, and wherever the evaluation of the next
one has come to, the expression that is entered stands in one of these texts, and so do those that
may be entered later. All procedures that are bound, answered or in hand were made by forms in
these texts. What is entered after a value was given is never that value. -/
theorem code_is_written {p : Precision} {bound : ℕ} {codes : List String} {answers : List Answer}
    {session : Session}
    (come : (Session.standard p).answersWithin bound codes = some (answers, session)) :
    (∀ v, session.frames.Binds v ∨ (∃ answer ∈ answers, answer.result = .ok v) →
      v.ProceduresFrom codes) ∧
    ∀ code e m, parse code = .ok e → Reaches p (session.opening code e) m →
      (∀ e ∈ m.code, e.WrittenIn (codes ++ [code])) ∧
      (∀ v, m.state.frames.Binds v ∨ v ∈ m.inHand → v.ProceduresFrom (codes ++ [code])) ∧
      ∀ v m' e' f, m.event = .give v → m.next? p = some m' → m'.event = .enter e' f →
        ∃ a ∈ m.active.head?, e' ∈ a.pending.code ∨
          ∃ formals c, .lambda formals e' c ∈ v :: a.pending.inHand := by
  obtain ⟨-, -, kept, values⟩ := Session.answers_kept (Session.Opened.standard p).kept come
  constructor
  · rintro v (⟨i, name, mem⟩ | ⟨answer, mem, given⟩)
    · exact (kept.made i _ mem).proceduresFrom
    · exact (values answer mem v given).proceduresFrom
  · intro code e m read path
    have now := (Session.opening_kept kept read).reaches path
    refine ⟨fun e mem => now.written mem, ?_,
      fun v m' e' f given next entered => m.entered_after_given given next entered⟩
    rintro v (⟨i, name, mem⟩ | mem)
    · exact (now.frames.made i _ mem).proceduresFrom
    · exact (now.made mem).proceduresFrom

/-- A call is given as data. It is not carried out, but the body of the procedure is entered that
it is given to, and this was written in the text before. -/
theorem code_is_written_quoted :
    let procedure : Value := .lambda [.symbol "x"] (.symbol "x") 0
    let call : Value := .list [.symbol "f", .number (.ofNat 1)]
    let e : Value := .list [.symbol "f", .list [.symbol "quote", call]]
    let code := "(f (quote (f 1)))"
    let start := Session.standard .standard
    let session : Session := ⟨.standard, start.frames.write 0 "f" procedure⟩
    let m : Moment := ⟨.give (.list [call]), [⟨0, .argument procedure [] []⟩],
      (session.task code e).state⟩
    let m' : Moment := ⟨.enter (.symbol "x") 1, [],
      ⟨session.frames.push ⟨[("x", .list [call])], some 0⟩, #[.evaluating code]⟩⟩
    start.answersWithin 5 ["(define f (lambda (x) x))"] =
        some ([⟨.ok (Value.lambdaForm [.symbol "x"] (.symbol "x") []), []⟩], session) ∧
      parse code = .ok e ∧ Reaches .standard (session.opening code e) m ∧
      m.next? .standard = some m' ∧
      (∀ v, m.state.frames.Binds v ∨ v ∈ m.inHand →
        v.ProceduresFrom ["(define f (lambda (x) x))", code]) ∧
      ∃ a ∈ m.active.head?, Value.symbol "x" ∈ a.pending.code ∨
        ∃ formals c, .lambda formals (.symbol "x") c ∈ .list [call] :: a.pending.inHand := by
  intro procedure call e code start session m m'
  have come : start.answersWithin 5 ["(define f (lambda (x) x))"] =
      some ([⟨.ok (Value.lambdaForm [.symbol "x"] (.symbol "x") []), []⟩], session) := rfl
  have read : parse "(f (quote (f 1)))" = .ok e := rfl
  have path : Reaches .standard (session.opening code e) m :=
    .head rfl (.head rfl (.head rfl (.head rfl .refl)))
  have next : m.next? .standard = some m' := rfl
  have law := (code_is_written come).2 code e m read path
  exact ⟨come, read, path, next, law.2.1, law.2.2 _ m' (.symbol "x") 1 rfl next rfl⟩

end DecimalLisp
