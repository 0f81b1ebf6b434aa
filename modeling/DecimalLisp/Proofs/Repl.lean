import DecimalLisp.Proofs.Session.Upkeep
import DecimalLisp.Proofs.Text.Line
import DecimalLisp.Proofs.Token
import DecimalLisp.Repl

/-!
# Conversations are sessions

A conversation over an input is the session over those of its lines that have tokens. What is shown
is, line by line, the prompt and the answer of the session. A fault is an answer as well, and the
conversation goes on with whatever was bound before it. Only a line whose reading comes upon a
numeral that no number can carry is not answered: the conversation ends there with the session and
the output as they are, and such lines are the only ones that end it before the input does.
-/

namespace DecimalLisp

open Reader Token

namespace Repl

/-- Reading a line comes upon a numeral that no number can carry. -/
def Unreadable (line : String) : Prop :=
  ∃ token, parse line = .error (.unrepresentable token)

/-- The lines that have tokens. -/
def spoken (lines : List String) : List String :=
  lines.filter fun line => ofText line ≠ []

/-- What is shown for an answer. -/
def shown (answer : Answer) : String :=
  match answer.result with
  | .ok v => v.print ++ "\n"
  | .error fault => "swisp error: " ++ fault.message ++ "\n"

/-- What is shown for lines, each after the prompt. The answers are those to the lines that have
tokens, and nothing is shown for the others. -/
def script (prompt : String) : List String → List Answer → String
  | [], _ => ""
  | line :: rest, answers =>
    if ofText line = [] then prompt ++ script prompt rest answers
    else match answers with
      | [] => ""
      | answer :: others => prompt ++ shown answer ++ script prompt rest others

theorem script_blank {line : String} (blank : ofText line = []) (prompt : String)
    (rest : List String) (answers : List Answer) :
    script prompt (line :: rest) answers = prompt ++ script prompt rest answers := by
  cases answers <;> exact if_pos blank

theorem script_answer {line : String} (tokens : ofText line ≠ []) (prompt : String)
    (rest : List String) (answer : Answer) (others : List Answer) :
    script prompt (line :: rest) (answer :: others) =
      prompt ++ shown answer ++ script prompt rest others :=
  if_neg tokens

/-! ## Replies -/

section Replies

variable {session : Session} {bound : ℕ} {line : String} {answer : Answer} {s : State}
  {known : List String}

/-- A line is not answered if and only if it has no tokens. -/
theorem blank_iff : line.toList.all Text.isBlank = true ↔ ofText line = [] := by
  rw [ofText_eq_nil_iff, List.all_eq_true]
  rfl

/-- A line without tokens can be read no further than its end. -/
theorem not_unreadable_of_blank (blank : ofText line = []) : ¬ Unreadable line := by
  rintro ⟨token, read⟩
  rw [parse, blank] at read
  cases read

theorem reply_blank (session : Session) (bound : ℕ) (blank : ofText line = []) :
    reply session bound line = .silence :=
  if_pos (blank_iff.mpr blank)

/-- A line that has tokens and can be read is answered as the session answers it. -/
theorem reply_answer (kept : session.frames.Kept known) (tokens : ofText line ≠ [])
    (readable : ¬ Unreadable line) (ran : (session.run bound line).answer? = some (answer, s)) :
    reply session bound line = .answer (shown answer) (session.resume s) s.log := by
  rw [reply, if_neg (mt blank_iff.mp tokens)]
  have upheld := Session.run_kept kept bound line
  cases outcome : session.run bound line with
  | done v s' =>
    rw [outcome] at ran
    cases ran
    rfl
  | failed fault s' =>
    rw [outcome] at ran upheld
    cases ran
    have reported : fault.reported = true := by
      rcases upheld.2.2 with fine | ⟨cause, read, rfl⟩
      · exact fine.reported
      · cases cause with
        | unrepresentable token => exact absurd ⟨token, read⟩ readable
        | _ => rfl
    dsimp only
    rw [if_pos reported]
    rfl
  | unfinished =>
    rw [outcome] at ran
    cases ran

/-- A line whose reading comes upon a numeral that no number can carry ends the conversation. -/
theorem reply_stop (session : Session) (bound : ℕ) {token : String}
    (read : parse line = .error (.unrepresentable token)) :
    reply session bound line =
      .stop (.unreadable (.unrepresentable token)) (session.resume session.state) #[] := by
  have tokens : ofText line ≠ [] := fun blank => not_unreadable_of_blank blank ⟨token, read⟩
  rw [reply, if_neg (mt blank_iff.mp tokens), Session.run_of_fault read]
  rfl

end Replies

/-! ## Conversations -/

variable {session later : Session} {bound : ℕ} {known lines : List String} {answers : List Answer}

/-- Lines that can be read are answered one after the other, and then come those that follow. -/
theorem converse_answered (kept : session.frames.Kept known)
    (readable : ∀ line ∈ lines, ¬ Unreadable line)
    (come : session.answersWithin bound (spoken lines) = some (answers, later)) (prompt : String)
    (following : List String) (output : String) (log : Array LogEntry) :
    ∃ log', converse bound prompt (lines ++ following) ⟨session, output, log⟩ =
      converse bound prompt following ⟨later, output ++ script prompt lines answers, log'⟩ := by
  induction lines generalizing session known answers output log with
  | nil =>
    cases come
    exact ⟨log, by simp [script]⟩
  | cons line rest ih =>
    obtain ⟨first, others⟩ := List.forall_mem_cons.mp readable
    rw [List.cons_append, converse]
    by_cases blank : ofText line = []
    · have same : spoken (line :: rest) = spoken rest :=
        List.filter_cons_of_neg (by simpa using blank)
      rw [same] at come
      obtain ⟨log', onward⟩ := ih kept others come (output ++ prompt) log
      refine ⟨log', ?_⟩
      rw [reply_blank session bound blank]
      dsimp only
      rw [onward, script_blank blank, String.append_assoc]
    · have more : spoken (line :: rest) = line :: spoken rest :=
        List.filter_cons_of_pos (by simpa using blank)
      rw [more] at come
      obtain ⟨⟨answer, s⟩, ran, then'⟩ := Option.bind_eq_some_iff.mp come
      obtain ⟨⟨answers', later'⟩, next, same⟩ := Option.map_eq_some_iff.mp then'
      cases same
      have kept' : (session.resume s).frames.Kept (known ++ [line]) :=
        (Session.answer_kept kept ran).2.1
      obtain ⟨log', onward⟩ :=
        ih kept' others next (output ++ prompt ++ shown answer) (log ++ s.log)
      refine ⟨log', ?_⟩
      rw [reply_answer kept blank first ran]
      dsimp only at onward ⊢
      rw [onward, script_answer blank]
      simp only [String.append_assoc]

section Inputs

variable {p : Precision} {input : String} {cut : List (List Char)}

theorem run_eq_converse (cuts : Text.IsLines input.toList cut) (prompt : String) :
    run session bound prompt input =
      converse bound prompt (cut.map String.ofList) ⟨session, "", #[]⟩ := by
  rw [run, ← Text.isLines_iff.mp cuts]

/-- A conversation all of whose lines can be read and answered comes to the end of its input. -/
theorem run_answered (cuts : Text.IsLines input.toList cut)
    (readable : ∀ line ∈ cut.map String.ofList, ¬ Unreadable line)
    (come : (Session.standard p).answersWithin bound (spoken (cut.map String.ofList)) =
      some (answers, session)) (prompt : String) :
    ∃ log, run (Session.standard p) bound prompt input =
      (⟨session, script prompt (cut.map String.ofList) answers ++ prompt ++ "\n", log⟩,
        .endOfInput) := by
  have opened := (Session.Opened.standard p).kept
  obtain ⟨log, ended⟩ := converse_answered opened readable come prompt [] "" #[]
  refine ⟨log, ?_⟩
  rw [List.append_nil] at ended
  rw [run_eq_converse cuts, ended, converse, String.empty_append]

/-- A conversation ends at the first line whose reading comes upon a numeral that no number can
carry. -/
theorem run_stopped (cuts : Text.IsLines input.toList cut) {before after : List String}
    {line token : String} (split : cut.map String.ofList = before ++ line :: after)
    (readable : ∀ line ∈ before, ¬ Unreadable line)
    (read : parse line = .error (.unrepresentable token))
    (come : (Session.standard p).answersWithin bound (spoken before) = some (answers, session))
    (prompt : String) :
    ∃ log, run (Session.standard p) bound prompt input =
      (⟨session, script prompt before answers ++ prompt, log⟩,
        .stopped (.unreadable (.unrepresentable token))) := by
  have opened := (Session.Opened.standard p).kept
  obtain ⟨log, ended⟩ := converse_answered opened readable come prompt (line :: after) "" #[]
  refine ⟨log, ?_⟩
  rw [run_eq_converse cuts, split, ended, converse, reply_stop session bound read,
    String.empty_append]
  dsimp only
  rw [Array.append_empty]
  rfl

end Inputs

/-- A conversation over an input is the session over those of its lines that have tokens. What is
shown is, line by line, the prompt and the answer, and at the end the prompt once more. If reading
a line comes upon a numeral that no number can carry, the conversation has ended there, with the
session and the output of the lines before it and one prompt. -/
theorem conversation_is_session (p : Precision) (prompt input : String) {cut : List (List Char)}
    (cuts : Text.IsLines input.toList cut) :
    let lines := cut.map String.ofList
    (∀ bound answers session, (∀ line ∈ lines, ¬ Unreadable line) →
      (Session.standard p).answersWithin bound (spoken lines) = some (answers, session) →
      ∃ log, run (Session.standard p) bound prompt input =
        (⟨session, script prompt lines answers ++ prompt ++ "\n", log⟩, .endOfInput)) ∧
    ∀ bound answers session before line after token, lines = before ++ line :: after →
      (∀ line ∈ before, ¬ Unreadable line) → parse line = .error (.unrepresentable token) →
      (Session.standard p).answersWithin bound (spoken before) = some (answers, session) →
      ∃ log, run (Session.standard p) bound prompt input =
        (⟨session, script prompt before answers ++ prompt, log⟩,
          .stopped (.unreadable (.unrepresentable token))) := by
  intro lines
  constructor
  · intro bound answers session readable come
    exact run_answered cuts readable come prompt
  · intro bound answers session before line after token split readable read come
    exact run_stopped cuts split readable read come prompt

/-- A line that fails, a blank one and one with a value are answered. A line with a numeral that no
number can carry comes after them and ends the conversation. -/
theorem conversation_is_session_lines :
    let cut := ["x\n".toList, " \n".toList, "(begin 7)\n".toList]
    let before := ["x\n", " \n", "(begin 7)\n"]
    ∃ answers session log log',
      Text.IsLines "x\n \n(begin 7)\n".toList cut ∧
      (Session.standard .standard).answersWithin 5 (spoken before) = some (answers, session) ∧
      run (Session.standard .standard) 5 "> " "x\n \n(begin 7)\n" =
        (⟨session, script "> " before answers ++ "> " ++ "\n", log⟩, .endOfInput) ∧
      script "> " before answers = "> swisp error: Undefined identifier: x\n> > 7\n" ∧
      Text.IsLines "x\n \n(begin 7)\n1e1000000000000000000".toList
        (cut ++ ["1e1000000000000000000".toList]) ∧
      run (Session.standard .standard) 5 "> " "x\n \n(begin 7)\n1e1000000000000000000" =
        (⟨session, script "> " before answers ++ "> ", log'⟩,
          .stopped (.unreadable (.unrepresentable "1e1000000000000000000"))) := by
  intro cut before
  have cuts : Text.IsLines "x\n \n(begin 7)\n".toList cut := Text.isLines_iff.mpr (by decide)
  have cuts' : Text.IsLines "x\n \n(begin 7)\n1e1000000000000000000".toList
      (cut ++ ["1e1000000000000000000".toList]) := Text.isLines_iff.mpr (by decide)
  have name : parse "x\n" = .ok (.symbol "x") := rfl
  have blank : parse " \n" = .error .unexpectedEnd := rfl
  have form : parse "(begin 7)\n" = .ok (.list [.symbol "begin", .number (.ofNat 7)]) := rfl
  have large : parse "1e1000000000000000000" =
      .error (.unrepresentable "1e1000000000000000000") := rfl
  have readable : ∀ line ∈ before, ¬ Unreadable line := by
    rintro line mem ⟨token, read⟩
    simp only [before, List.mem_cons, List.not_mem_nil, or_false] at mem
    rcases mem with rfl | rfl | rfl
    · rw [name] at read
      cases read
    · rw [blank] at read
      cases read
    · rw [form] at read
      cases read
  have come : (Session.standard .standard).answersWithin 5 (spoken ["x\n", " \n", "(begin 7)\n"]) =
      some ([⟨.error (.undefined (.symbol "x")), []⟩, ⟨.ok (.number (.ofNat 7)), []⟩],
        Session.standard .standard) := rfl
  have lines : cut.map String.ofList = before := by simp [cut, before]
  have lines' : (cut ++ ["1e1000000000000000000".toList]).map String.ofList =
      before ++ "1e1000000000000000000" :: [] := by simp [cut, before]
  have law := (conversation_is_session .standard "> " _ cuts).1 5
  rw [lines] at law
  obtain ⟨log, ended⟩ := law _ _ readable come
  obtain ⟨log', stopped⟩ := (conversation_is_session .standard "> " _ cuts').2 5 _ _ before _ []
    _ lines' readable large come
  exact ⟨_, _, log, log', cuts, come, ended, rfl, cuts', stopped⟩
end Repl

end DecimalLisp
