import DecimalLisp.Proofs.Evaluation.Parts
import DecimalLisp.Proofs.Reader
import DecimalLisp.Session

/-!
# Answers of a session

What a session answers to texts that are evaluated one after the other, and the arithmetic that it
comes to on the way. There are answers to the texts only up to the first whose evaluation does not
end.
-/

namespace DecimalLisp

/-- The answer to a text. -/
structure Answer where
  /-- The value, or what went wrong. -/
  result : Except Fault Value
  /-- The warnings that were given. -/
  warnings : List String

namespace Answer

/-- What is seen of an answer when values and faults are seen in part. -/
def view {α β : Type} (ofValue : Value → α) (ofFault : Fault → β) (answer : Answer) : Except β α :=
  (answer.result.map ofValue).mapError ofFault

/-- The number that is answered last, if a number is. -/
def lastNumber? (answers : List Answer) : Option Decimal :=
  answers.getLast?.bind fun answer => answer.result.toOption.bind Value.number?

/-- When the last answer is a number, its text is seen. -/
theorem getLast?_views {β : Type} (ofFault : Fault → β) {answers : List Answer} {x : Decimal}
    (h : lastNumber? answers = some x) :
    (answers.map (view Value.print ofFault)).getLast? = some (.ok (String.ofList x.plainText)) := by
  obtain ⟨⟨result, warnings⟩, last, number⟩ := Option.bind_eq_some_iff.mp h
  cases result with
  | error fault => cases number
  | ok v =>
    have text := Value.print_of_number (show v.number? = some x from number)
    rw [List.getLast?_map, last, ← text]
    rfl

end Answer

/-- What a user is told of a fault. -/
def Fault.told (fault : Fault) : FaultKind × String := (fault.kind, fault.message)

/-- The answer with which an evaluation ends, and the state that it ends in. -/
def Outcome.answer? : Outcome Value → Option (Answer × State)
  | .done v s => some (⟨.ok v, LogEntry.linesFrom Level.warning s.log⟩, s)
  | .failed fault s => some (⟨.error fault, LogEntry.linesFrom Level.warning s.log⟩, s)
  | .unfinished => none

namespace Session

/-- The answers to several texts and the session after them, if every evaluation ends within the
bound. -/
def answersWithin (bound : ℕ) : Session → List String → Option (List Answer × Session)
  | session, [] => some ([], session)
  | session, code :: codes =>
    (session.run bound code).answer?.bind fun first =>
      (answersWithin bound (session.resume first.2) codes).map fun rest =>
        (first.1 :: rest.1, rest.2)

/-- Courses that are seen alike and end with numbers end with numbers of one text. -/
theorem plainText_eq_of_views {β : Type} {ofFault : Fault → β} {x y : Decimal}
    {related : List Answer × Session → List Answer × Session → Prop}
    {first second : Option (List Answer × Session)} (h : Option.Rel related first second)
    (seen : ∀ course course', related course course' →
      course.1.map (Answer.view Value.print ofFault) =
        course'.1.map (Answer.view Value.print ofFault))
    (hx : first.map (fun course => Answer.lastNumber? course.1) = some (some x))
    (hy : second.map (fun course => Answer.lastNumber? course.1) = some (some y)) :
    x.plainText = y.plainText := by
  obtain ⟨course, rfl, last⟩ := Option.map_eq_some_iff.mp hx
  obtain ⟨course', rfl, last'⟩ := Option.map_eq_some_iff.mp hy
  cases h with
  | some alike =>
    have ends := congrArg List.getLast? (seen _ _ alike)
    rw [Answer.getLast?_views ofFault last, Answer.getLast?_views ofFault last'] at ends
    exact String.ofList_injective (Except.ok.inj (Option.some.inj ends))

/-- What is to be evaluated once a text has been read. -/
def task (session : Session) (code : String) (expression : Value) : Task :=
  ⟨expression, root, { session.state with log := #[.evaluating code] }⟩

/-- A session comes to a step of arithmetic while it goes through texts. -/
inductive Calculates : Session → List String → Operation → Decimal → Decimal → Prop where
  | here {session code codes expression operation x y}
      (read : Reader.parse code = .ok expression)
      (step : (session.task code expression).Calculates session.precision operation x y) :
      Calculates session (code :: codes) operation x y
  | later {session code codes bound answer s operation x y}
      (first : (session.run bound code).answer? = some (answer, s))
      (rest : Calculates (session.resume s) codes operation x y) :
      Calculates session (code :: codes) operation x y

/-- A text that is read is evaluated in the root frame. -/
theorem run_of_parse {code : String} {e : Value} (read : Reader.parse code = .ok e)
    (session : Session) (bound : ℕ) :
    session.run bound code = DecimalLisp.evaluate session.precision bound e root
      (session.task code e).state := by
  rw [run, read]
  rfl

/-- A text that cannot be read leaves everything as it is. -/
theorem run_of_fault {code : String} {fault : ReadFault} (read : Reader.parse code = .error fault)
    (session : Session) (bound : ℕ) :
    session.run bound code = .failed (.unreadable fault) session.state := by
  rw [run, read]

/-- A text that is read and ends by the rules ends so within every bound that suffices. -/
theorem state_of_direct {session : Session} {code : String} {e v : Value} {bound : ℕ}
    {answer : Answer} {s s' : State} (read : Reader.parse code = .ok e)
    (derived : Direct session.precision e root (session.task code e).state (.done v s))
    (ran : (session.run bound code).answer? = some (answer, s')) : s' = s := by
  rw [run_of_parse read] at ran
  have ended : DecimalLisp.evaluate session.precision bound e root (session.task code e).state ≠
      .unfinished := by
    intro none
    rw [none] at ran
    cases ran
  rw [(evaluate_follows _ _ _ _ _ ended).unique derived] at ran
  cases ran
  rfl

/-- Texts whose evaluations all end have first texts whose evaluations all end. -/
theorem answersWithin_prefix {bound : ℕ} {session : Session} {before after : List String}
    (h : (session.answersWithin bound (before ++ after)).isSome = true) :
    (session.answersWithin bound before).isSome = true := by
  induction before generalizing session with
  | nil => rfl
  | cons code codes ih =>
    obtain ⟨course, all⟩ := Option.isSome_iff_exists.mp h
    obtain ⟨first, answered, rest⟩ := Option.bind_eq_some_iff.mp all
    obtain ⟨others, come, -⟩ := Option.map_eq_some_iff.mp rest
    obtain ⟨course', come'⟩ := Option.isSome_iff_exists.mp (ih (come ▸ Option.isSome_some))
    rw [answersWithin, answered, Option.bind_some, come']
    rfl

end Session

end DecimalLisp
