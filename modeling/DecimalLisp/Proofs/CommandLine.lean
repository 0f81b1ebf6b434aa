import DecimalLisp.CommandLine.Run
import DecimalLisp.Proofs.Likeness.Session
import DecimalLisp.Proofs.OneLine
import DecimalLisp.Proofs.Repl
import DecimalLisp.Proofs.Session.Visits
import DecimalLisp.Proofs.Text.Integer

/-!
# The command and a conversation

The command evaluates one text, or it holds a conversation. On a text of one line both come to one
verdict: a text is shown, or a fault is reported, or a numeral that no number can carry is not
reported. The two say it in different ways, but whoever sees what one of them leaves behind knows
what the other one would. That depends on what values and messages look like: no message breaks
its line, and no value looks like the report of a fault. Only two dashes never come to the command,
because they are dropped where it takes its options.
-/

namespace DecimalLisp.CommandLine

open Reader Token Text

/-! ## Arguments -/

theorem toList_eval (code : String) :
    ("--eval=" ++ code).toList = '-' :: '-' :: 'e' :: 'v' :: 'a' :: 'l' :: '=' :: code.toList := by
  rw [String.toList_append]
  rfl

/-- Plain digits are a plain word. -/
theorem shape_digits {text : String} (plain : PlainDigits text.toList) :
    shape text = .ok .plain := by
  unfold shape
  split
  · next rest begun =>
    rw [begun] at plain
    exact absurd (plain '-' List.mem_cons_self) (by decide)
  · rfl

/-- No spelling of an option has an equals sign in it. -/
theorem ofSpelling?_eq_none {text : String} (sign : '=' ∈ text.toList) :
    Flag.ofSpelling? text = none := by
  have spellings : ∀ entry ∈ Flag.spelt, '=' ∉ entry.1.toList := by decide
  rw [Flag.ofSpelling?, List.lookup_eq_none_iff]
  intro entry mem
  rw [bne_iff_ne]
  rintro rfl
  exact spellings entry mem sign

/-- A text that follows a long option after an equals sign is the value of the option. -/
theorem shape_eval (code : String) :
    shape ("--eval=" ++ code) = .ok (.flag .expression (some code)) := by
  have other : Flag.ofSpelling? ("--eval=" ++ code) = none :=
    ofSpelling?_eq_none (by simp)
  have parts : splitAtEquals ("--eval=" ++ code).toList = ("--eval".toList, some code.toList) := by
    rw [toList_eval]
    rfl
  rw [toList_eval] at parts
  rw [shape, toList_eval]
  simp only [other, parts]
  rw [String.ofList_toList, String.ofList_toList]
  rfl

section Once

variable {p : Precision}

/-- The options that give a precision and a text. Two dashes are dropped. -/
def onceOptions (p : Precision) (code : String) : Options :=
  ⟨.absent, .written p.digits, .absent, if code = "--" then .hollow else .written code⟩

/-- A number is not written as two dashes. -/
theorem toString_ne_dashes (n : ℕ) : toString n ≠ "--" := by
  intro dashes
  have plain := plainDigits_toString n
  rw [dashes] at plain
  exact absurd (plain '-' (by decide)) (by decide)

/-- A precision has few digits. -/
theorem integer?_digits (valid : p.digits ≤ Precision.most) :
    integer? (toString p.digits).toList = some (p.digits : ℤ) := by
  refine integer?_toString ((Nat.length_toDigits_le_iff (by decide) (by decide)).mpr ?_)
  have few : p.digits < 10 ^ 18 := valid.trans_lt (by decide)
  exact few.trans_le (Nat.pow_le_pow_right (by decide) (by decide))

theorem shapes_once (p : Precision) (code : String) :
    shapes ["--precision", toString p.digits, "--eval=" ++ code] =
      .ok [("--precision", .flag .precision none), (toString p.digits, .plain),
        ("--eval=" ++ code, .flag .expression (some code))] := by
  have noSeparator : "--eval=" ++ code ≠ "--" := by
    intro dashes
    have length := congrArg (List.length ∘ String.toList) dashes
    simp at length
  have noPrecision : "--precision" ≠ "--" := by decide
  have first : shape "--precision" = .ok (.flag .precision none) := rfl
  simp only [shapes, if_neg (toString_ne_dashes _), if_neg noSeparator, if_neg noPrecision, first,
    shape_digits (plainDigits_toString _), shape_eval]
  rfl

theorem ofArguments_once (valid : p.digits ≤ Precision.most) (code : String) :
    Request.ofArguments ["--precision", toString p.digits, "--eval=" ++ code] =
      .ok (.work (onceOptions p code)) := by
  have digits : Options.none.set (toString p.digits) .precision =
      .ok ⟨.absent, .written p.digits, .absent, .absent⟩ := by
    rw [Options.set, if_neg (toString_ne_dashes _), Options.setTo, integer?_digits valid]
    rfl
  have text : Options.set ⟨.absent, .written p.digits, .absent, .absent⟩ code .expression =
      .ok (onceOptions p code) := by
    unfold Options.set onceOptions
    split <;> rfl
  have last : request [] ⟨.absent, .written p.digits, .absent, .absent⟩
      [("--eval=" ++ code, .flag .expression (some code))] = .ok (.work (onceOptions p code)) := by
    have taken : Flag.expression.takesValue = true := rfl
    rw [request, if_pos taken, text]
    rfl
  have taken : Flag.precision.takesValue = true := rfl
  rw [Request.ofArguments, shapes_once]
  change request [] .none _ = _
  rw [request, if_pos taken, digits]
  exact last

/-- What the command does that is given a precision and a text. -/
theorem runWithin_once (valid : p.digits ≤ Precision.most) (code : String) (bound : ℕ)
    (surroundings : Variables) (input : String) :
    runWithin bound surroundings ["--precision", toString p.digits, "--eval=" ++ code] input =
      if code = "--" then .escape (.valueless .expression)
      else evaluateOnce bound (level surroundings (onceOptions p code)) (Session.standard p)
        code := by
  have found : Precision.ofInt? p.digits = some p := by
    have range : 1 ≤ (p.digits : ℤ) ∧ (p.digits : ℤ) ≤ Precision.most :=
      ⟨Int.ofNat_le.mpr p.one_le, Int.ofNat_le.mpr valid⟩
    rw [Precision.ofInt?, dif_pos range]
    rfl
  rw [runWithin, ofArguments_once valid code]
  by_cases dashes : code = "--"
  · simp only [workWithin, onceOptions, precision, precisionOf, Settings.checkPrecision, found,
      if_pos dashes]
  · simp only [workWithin, onceOptions, precision, precisionOf, Settings.checkPrecision, found,
      if_neg dashes]

end Once

/-! ## Verdicts -/

/-- What the evaluation of a text comes to for whoever has asked for it. -/
inductive Verdict where
  /-- A text is shown. -/
  | shows (text : String)
  /-- A fault is reported. -/
  | reports (message : String)
  /-- A fault is not reported. -/
  | escapes (fault : Fault)

/-- A text that begins like the report of a fault. -/
def BeginsAsReport (text : String) : Prop :=
  "swisp error: ".toList <+: text.toList

namespace Verdict

/-- What the command leaves behind that evaluates one text. -/
def result (notes : String) : Verdict → Result
  | shows text => ⟨.ok 0, text ++ "\n", notes⟩
  | reports message => ⟨.ok 1, "", notes ++ ("swisp error: " ++ message ++ "\n")⟩
  | escapes fault => ⟨.error (.program fault), "", notes⟩

/-- What a conversation of one line shows. -/
def output (prompt : String) : Verdict → String
  | shows text => prompt ++ (text ++ "\n") ++ prompt ++ "\n"
  | reports message => prompt ++ ("swisp error: " ++ message ++ "\n") ++ prompt ++ "\n"
  | escapes _ => prompt

/-- How a conversation of one line ends. -/
def ending : Verdict → Repl.Ending
  | escapes fault => .stopped fault
  | _ => .endOfInput

/-- Verdicts that can be told apart by what is shown. -/
inductive Sound : Verdict → Prop where
  | shows {text} : ¬ BeginsAsReport text → Sound (.shows text)
  | reports {message} : OneLine message → Sound (.reports message)
  | escapes {fault} : fault.kind = .unrepresentable → Sound (.escapes fault)

end Verdict

/-- The command and a conversation come to one verdict on a text. -/
structure Agree (session : Session) (bound : ℕ) (code : String) (least : Level) (prompt : String)
    (verdict : Verdict) : Prop where
  /-- It can be told apart from others. -/
  sound : verdict.Sound
  /-- The command comes to it. -/
  once : ∃ log, evaluateOnce bound least session code = verdict.result (logText least log)
  /-- The conversation shows it. -/
  output : (Repl.run session bound prompt (code ++ "\n")).1.output = verdict.output prompt
  /-- The conversation ends with it. -/
  ending : (Repl.run session bound prompt (code ++ "\n")).2 = verdict.ending

section Agree

variable {session : Session} {bound : ℕ} {code : String} {s s' : State} {fault fault' : Fault}

/-- A line feed at the end of a text is passed over. -/
theorem ofText_line (code : String) : ofText (code ++ "\n") = ofText code := by
  rw [ofText_eq, String.toList_append]
  exact ofChars_append_blank (c := '\n') (by decide) code.toList

theorem parse_line (code : String) : parse (code ++ "\n") = parse code := by
  rw [parse, ofText_line, parse]

/-- A conversation over one line that has tokens is its reply to the line. -/
theorem run_line (single : OneLine code) (tokens : ofText code ≠ []) (prompt : String) :
    Repl.run session bound prompt (code ++ "\n") =
      match session.run bound (code ++ "\n") with
      | .done value state => (⟨session.resume state,
          prompt ++ (value.print ++ "\n") ++ prompt ++ "\n", state.log⟩, .endOfInput)
      | .failed fault state =>
        if fault.reported then (⟨session.resume state,
          prompt ++ Repl.report fault ++ prompt ++ "\n", state.log⟩, .endOfInput)
        else (⟨session.resume state, prompt, state.log⟩, .stopped fault)
      | .unfinished => (⟨session, prompt, #[]⟩, .unfinished) := by
  have cut : lines (code ++ "\n").toList = [(code ++ "\n").toList] := by
    rw [String.toList_append]
    exact lines_append single []
  have spoken : ofText (code ++ "\n") ≠ [] := ofText_line code ▸ tokens
  rw [Repl.run, cut, List.map_singleton, String.ofList_toList, Repl.converse, Repl.reply,
    if_neg (mt Repl.blank_iff.mp spoken)]
  cases session.run bound (code ++ "\n") with
  | done value state => simp [Repl.converse]
  | failed fault state => cases reported : fault.reported <;> simp [Repl.converse, reported]
  | unfinished => simp

/-- The text of a value that may occur does not begin like the report of a fault. -/
theorem not_beginsAsReport {codes : List String} {n : ℕ} {v : Value} (h : v.Made codes n) :
    ¬ BeginsAsReport v.print := by
  intro begun
  -- There is a blank in every report, and none in a number or a word.
  have blank : ' ' ∈ v.print.toList := begun.subset (by decide)
  have number : ∀ x : Decimal, ' ' ∉ (String.ofList x.plainText).toList := by
    intro x mem
    rw [String.toList_ofList] at mem
    rcases Decimal.mem_plainText mem with digit | same | same
    · cases digit
    · cases same
    · cases same
  have procedure : ' ' ∉ Value.procedureText.toList := by decide
  cases h with
  | number x => exact number x blank
  | constant x => exact number x blank
  | symbol written => exact not_inWord_of_blank (by decide) (written.isWord.inWord ' ' blank)
  | list _ =>
    rw [BeginsAsReport, Value.print, String.toList_append, String.toList_append] at begun
    obtain ⟨rest, same⟩ := begun
    exact absurd (List.cons.inj same).1 (by decide)
  | builtin b => exact procedure blank
  | lambda names _ _ => exact procedure blank

section Cases

variable (single : OneLine code) (tokens : ofText code ≠ []) (least : Level) (prompt : String)
include single tokens

theorem agree_shows {v w : Value} (ran : session.run bound code = .done v s)
    (ran' : session.run bound (code ++ "\n") = .done w s') (same : v.print = w.print)
    (other : ¬ BeginsAsReport v.print) :
    Agree session bound code least prompt (.shows v.print) where
  sound := .shows other
  once := ⟨s.log, by rw [evaluateOnce, ran]; rfl⟩
  output := by rw [run_line single tokens, ran', same]; rfl
  ending := by rw [run_line single tokens, ran']; rfl

theorem agree_reports (ran : session.run bound code = .failed fault s)
    (ran' : session.run bound (code ++ "\n") = .failed fault' s') (same : fault.told = fault'.told)
    (reported : fault.reported = true) (line : OneLine fault.message) :
    Agree session bound code least prompt (.reports fault.message) := by
  obtain ⟨kind, message⟩ := Prod.mk.inj same
  have reported' : fault'.reported = true := by
    rw [← reported, Fault.reported, ← kind]
    rfl
  exact {
    sound := .reports line
    once := ⟨s.log, by simp only [evaluateOnce, ran, reported, if_true]; rfl⟩
    output := by
      simp only [run_line single tokens, ran', reported', if_true, message]
      rfl
    ending := by
      simp only [run_line single tokens, ran', reported', if_true]
      rfl }

theorem agree_escapes (ran : session.run bound code = .failed fault s)
    (ran' : session.run bound (code ++ "\n") = .failed fault s')
    (kind : fault.kind = .unrepresentable) :
    Agree session bound code least prompt (.escapes fault) := by
  have escapes : fault.reported = false := by rw [Fault.reported, kind]
  exact {
    sound := .escapes kind
    once := ⟨s.log, by simp only [evaluateOnce, ran, escapes]; rfl⟩
    output := by
      simp only [run_line single tokens, ran', escapes]
      rfl
    ending := by
      simp only [run_line single tokens, ran', escapes]
      rfl }

/-- If the evaluation of a text ends, the command and a conversation come to one verdict on it. -/
theorem exists_verdict {p : Precision} (ends : (Session.standard p).run bound code ≠ .unfinished) :
    ∃ verdict, Agree (Session.standard p) bound code least prompt verdict := by
  cases read : parse code with
  | error cause =>
    have ran := Session.run_of_fault read (Session.standard p) bound
    have ran' := Session.run_of_fault ((parse_line code).trans read) (Session.standard p) bound
    have reports := agree_reports single tokens least prompt ran ran' rfl
    rcases cause_of_parse read with rfl | rfl | ⟨token, mem, apart, fault⟩
    · exact ⟨_, reports rfl (by decide)⟩
    · exact ⟨_, reports rfl (by decide)⟩
    · have word : IsWord token :=
        ((valid_of_mem_ofText mem).resolve_left apart.1).resolve_left apart.2
      rcases cause_of_atom fault with rfl | rfl
      · exact ⟨_, agree_escapes single tokens least prompt ran ran' rfl⟩
      · exact ⟨_, reports rfl (oneLine_append.mpr ⟨by decide, word.oneLine⟩)⟩
  | ok e =>
    have reads : (Likeness.same 0 0).Reads code (code ++ "\n") := by
      rw [Likeness.Reads, parse_line, read]
      exact .ok (Likeness.same_code (plain_of_parse read))
    have alike := Likeness.run_alike rfl (Likeness.standard_alike (Nat.zero_le 1) rfl (.inr rfl))
      Nat.one_pos reads (fun _ _ operation x y _ => Likeness.exact_agrees p operation x y) bound
    have kept := Session.run_kept (Session.Opened.standard p).kept bound code
    generalize ran : (Session.standard p).run bound code = o,
      ran' : (Session.standard p).run bound (code ++ "\n") = o' at alike ends kept
    cases alike with
    | done _ _ values =>
      exact ⟨_, agree_shows single tokens least prompt ran ran' values.print_eq
        (not_beginsAsReport kept.2.2)⟩
    | failed _ _ faults =>
      rcases kept.2.2 with fine | ⟨cause, failed, -⟩
      · exact ⟨_, agree_reports single tokens least prompt ran ran'
          (faults.told_eq fun same => same) fine.reported fine.oneLine⟩
      · rw [read] at failed
        cases failed
    | unfinished => exact absurd rfl ends

end Cases

end Agree

/-! ## What is seen of a verdict -/

/-- The last line of a text, with its line feed if it has one. -/
def lastLine? (text : String) : Option String :=
  (lines text.toList).getLast?.map String.ofList

/-- Notes are written on lines of their own. -/
theorem logText_ended (least : Level) (log : Array LogEntry) :
    logText least log = "" ∨ ∃ front, (logText least log).toList = front ++ ['\n'] := by
  rw [logText]
  generalize LogEntry.linesFrom least log = texts
  induction texts using List.reverseRecOn with
  | nil => exact .inl rfl
  | append_singleton texts text _ =>
    refine .inr ⟨((texts.map (· ++ "\n")).flatMap String.toList) ++ text.toList, ?_⟩
    simp [String.toList_join]

/-- A line that comes after notes is the last one. -/
theorem lastLine?_notes {line : String} (single : OneLine line) (least : Level)
    (log : Array LogEntry) :
    lastLine? (logText least log ++ (line ++ "\n")) = some (line ++ "\n") := by
  have alone : lines (line ++ "\n").toList = [(line ++ "\n").toList] := by
    rw [String.toList_append]
    exact lines_append single []
  rw [lastLine?, String.toList_append]
  rcases logText_ended least log with none | ⟨front, ended⟩
  · rw [none, String.toList_empty, List.nil_append, alone]
    simp
  · rw [ended, List.append_assoc, List.singleton_append, lines_append_feed, alone]
    simp

section Seen

variable {prompt text line : String}

theorem answer_inj : prompt ++ (text ++ "\n") ++ prompt ++ "\n" =
    prompt ++ line ++ "\n" ++ prompt ++ "\n" ↔ text = line := by
  simp only [String.append_assoc, String.append_right_inj, String.append_left_inj]

theorem prompt_ne_answer : prompt ≠ prompt ++ line ++ "\n" ++ prompt ++ "\n" := by
  intro same
  have length := congrArg String.length same
  simp only [String.length_append] at length
  have feed : "\n".length = 1 := rfl
  omega

/-- A report begins like one. -/
theorem beginsAsReport (message : String) : BeginsAsReport ("swisp error: " ++ message) :=
  ⟨message.toList, String.toList_append.symm⟩

end Seen

section Verdict

variable {verdict : Verdict} {least : Level} {log : Array LogEntry} {prompt : String}

/-- The command prints a text exactly where a conversation shows it, and not as a report. -/
theorem printed_iff (sound : verdict.Sound) (text : String) :
    (verdict.result (logText least log)).ending = .ok 0 ∧
        (verdict.result (logText least log)).output = text ++ "\n" ↔
      verdict.output prompt = prompt ++ text ++ "\n" ++ prompt ++ "\n" ∧
        ¬ BeginsAsReport text := by
  cases sound with
  | shows other =>
    refine ⟨?_, ?_⟩
    · rintro ⟨-, same⟩
      obtain rfl := (String.append_left_inj _).mp same
      exact ⟨answer_inj.mpr rfl, other⟩
    · rintro ⟨same, -⟩
      obtain rfl := answer_inj.mp same
      exact ⟨rfl, rfl⟩
  | @reports message _ =>
    refine ⟨?_, ?_⟩
    · rintro ⟨exit, -⟩
      cases exit
    · rintro ⟨same, other⟩
      exact absurd (answer_inj.mp same ▸ beginsAsReport message) other
  | escapes _ =>
    refine ⟨?_, ?_⟩
    · rintro ⟨exit, -⟩
      cases exit
    · rintro ⟨same, -⟩
      exact absurd same prompt_ne_answer

/-- The command reports a fault, after its notes, exactly where a conversation reports it. -/
theorem reported_iff (sound : verdict.Sound) (message : String) :
    (verdict.result (logText least log)).ending = .ok 1 ∧
        (verdict.result (logText least log)).output = "" ∧
        lastLine? (verdict.result (logText least log)).errors =
          some ("swisp error: " ++ message ++ "\n") ↔
      verdict.output prompt =
        prompt ++ ("swisp error: " ++ message) ++ "\n" ++ prompt ++ "\n" := by
  cases sound with
  | shows other =>
    refine ⟨?_, fun same => ?_⟩
    · rintro ⟨exit, -⟩
      cases exit
    · exact absurd (answer_inj.mp same ▸ beginsAsReport message) other
  | @reports message' line =>
    have last : lastLine? (logText least log ++ ("swisp error: " ++ message' ++ "\n")) =
        some ("swisp error: " ++ message' ++ "\n") :=
      lastLine?_notes (oneLine_append.mpr ⟨by decide, line⟩) least log
    refine ⟨?_, fun same => ?_⟩
    · rintro ⟨-, -, same⟩
      exact answer_inj.mpr ((String.append_left_inj _).mp (Option.some.inj (last.symm.trans same)))
    · rw [← answer_inj.mp same]
      exact ⟨rfl, rfl, last⟩
  | escapes _ =>
    refine ⟨?_, fun same => ?_⟩
    · rintro ⟨exit, -⟩
      cases exit
    · exact absurd same prompt_ne_answer

/-- A fault that is not reported ends the command exactly where it stops a conversation. -/
theorem escaped_iff {notes : String} (verdict : Verdict) (fault : Fault) :
    (verdict.result notes).ending = .error (.program fault) ↔
      verdict.ending = .stopped fault := by
  cases verdict with
  | shows _ => exact ⟨nofun, nofun⟩
  | reports _ => exact ⟨nofun, nofun⟩
  | escapes fault' =>
    constructor <;>
    · intro same
      cases same
      rfl

end Verdict

/-- The command that is given a precision and a text of one line agrees with a conversation in that
precision over this line, wherever the evaluation ends. Two dashes are the one text of which this is
not so. -/
theorem once_agrees_with_conversation {p : Precision} (valid : p.digits ≤ Precision.most)
    {code : String} (single : '\n' ∉ code.toList) (tokens : ofText code ≠ []) (kept : code ≠ "--")
    {bound : ℕ} (ends : (Session.standard p).run bound code ≠ .unfinished)
    (surroundings : Variables) (input prompt : String) :
    let once :=
      runWithin bound surroundings ["--precision", toString p.digits, "--eval=" ++ code] input
    let talk := Repl.run (Session.standard p) bound prompt (code ++ "\n")
    (∀ text, once.ending = .ok 0 ∧ once.output = text ++ "\n" ↔
      talk.1.output = prompt ++ text ++ "\n" ++ prompt ++ "\n" ∧ ¬ BeginsAsReport text) ∧
    (∀ message, once.ending = .ok 1 ∧ once.output = "" ∧
        lastLine? once.errors = some ("swisp error: " ++ message ++ "\n") ↔
      talk.1.output = prompt ++ ("swisp error: " ++ message) ++ "\n" ++ prompt ++ "\n") ∧
    ∀ fault, fault.kind = .unrepresentable →
      (once.ending = .error (.program fault) ↔ talk.2 = .stopped fault) := by
  intro once talk
  have ran := (runWithin_once valid code bound surroundings input).trans (if_neg kept)
  generalize level surroundings (onceOptions p code) = least at ran
  obtain ⟨verdict, agree⟩ := exists_verdict single tokens least prompt ends
  obtain ⟨log, evaluated⟩ := agree.once
  have once_eq : once = verdict.result (logText least log) := ran.trans evaluated
  have shown : talk.1.output = verdict.output prompt := agree.output
  have ended : talk.2 = verdict.ending := agree.ending
  rw [once_eq, shown, ended]
  exact ⟨printed_iff agree.sound, reported_iff agree.sound, fun fault _ => escaped_iff verdict fault⟩

/-- A value is printed by the command as a conversation shows it. -/
theorem once_agrees_with_conversation_value :
    let p : Precision := ⟨28, by decide⟩
    let arguments := ["--precision", toString p.digits, "--eval=" ++ "(begin 7)"]
    p.digits ≤ Precision.most ∧ '\n' ∉ "(begin 7)".toList ∧ ofText "(begin 7)" ≠ [] ∧
      "(begin 7)" ≠ "--" ∧ (Session.standard p).run 5 "(begin 7)" ≠ .unfinished ∧
      (runWithin 5 (fun _ => none) arguments "").ending = .ok 0 ∧
      (runWithin 5 (fun _ => none) arguments "").output = "7" ++ "\n" ∧
      (Repl.run (Session.standard p) 5 "> " ("(begin 7)" ++ "\n")).1.output =
        "> " ++ "7" ++ "\n" ++ "> " ++ "\n" := by
  intro p arguments
  have valid : p.digits ≤ Precision.most := by decide
  have single : '\n' ∉ "(begin 7)".toList := by decide
  have tokens : ofText "(begin 7)" ≠ [] := by decide
  have kept : "(begin 7)" ≠ "--" := by decide
  have ends : (Session.standard p).run 5 "(begin 7)" ≠ .unfinished := nofun
  have value : (Session.standard p).run 5 "(begin 7)" = .done (.number (.ofNat 7))
      ((Session.standard p).task "(begin 7)" (.list [.symbol "begin", .number (.ofNat 7)])).state :=
    rfl
  have text : (Value.number (.ofNat 7)).print = "7" := rfl
  have ran := (runWithin_once valid "(begin 7)" 5 (fun _ => none) "").trans (if_neg kept)
  rw [evaluateOnce, value] at ran
  dsimp only at ran
  rw [text] at ran
  have exit : (runWithin 5 (fun _ => none) arguments "").ending = .ok 0 :=
    congrArg Result.ending ran
  have printed : (runWithin 5 (fun _ => none) arguments "").output = "7" ++ "\n" :=
    congrArg Result.output ran
  have law := once_agrees_with_conversation valid single tokens kept ends (fun _ => none) "" "> "
  exact ⟨valid, single, tokens, kept, ends, exit, printed, ((law.1 "7").mp ⟨exit, printed⟩).1⟩

/-- Two dashes are a symbol, and a conversation says that it is not defined. As the value of an
option they are dropped, so the command has nothing to evaluate. -/
theorem once_disagrees_with_conversation_dashes :
    let p : Precision := ⟨28, by decide⟩
    let once := runWithin 5 (fun _ => none) ["--precision", toString p.digits, "--eval=" ++ "--"] ""
    let report := "swisp error: " ++ "Undefined identifier: --"
    '\n' ∉ "--".toList ∧ ofText "--" ≠ [] ∧ (Session.standard p).run 5 "--" ≠ .unfinished ∧
      once.ending = .error (.valueless .expression) ∧
      (Repl.run (Session.standard p) 5 "> " ("--" ++ "\n")).1.output =
        "> " ++ report ++ "\n" ++ "> " ++ "\n" ∧
      ¬ (once.ending = .ok 1 ∧ once.output = "" ∧ lastLine? once.errors = some (report ++ "\n") ↔
        (Repl.run (Session.standard p) 5 "> " ("--" ++ "\n")).1.output =
          "> " ++ report ++ "\n" ++ "> " ++ "\n") := by
  intro p once report
  have single : '\n' ∉ "--".toList := by decide
  have tokens : ofText "--" ≠ [] := by decide
  have ends : (Session.standard p).run 5 "--" ≠ .unfinished := nofun
  have valid : p.digits ≤ Precision.most := by decide
  have dropped : once.ending = .error (.valueless .expression) :=
    congrArg Result.ending (runWithin_once valid "--" 5 (fun _ => none) "")
  have read : parse "--" = .ok (.symbol "--") := rfl
  have failed : ∀ code, parse code = .ok (.symbol "--") → (Session.standard p).run 5 code =
      .failed (.undefined (.symbol "--")) ((Session.standard p).task code (.symbol "--")).state :=
    fun code read => (Session.run_of_parse read (Session.standard p) 5).trans rfl
  have verdict : Agree (Session.standard p) 5 "--" Level.warning "> "
      (.reports "Undefined identifier: --") :=
    agree_reports single tokens _ _ (failed _ read) (failed _ ((parse_line "--").trans read)) rfl
      rfl (by decide)
  have shown := verdict.output.trans (answer_inj.mpr rfl)
  refine ⟨single, tokens, ends, dropped, shown, fun agree => ?_⟩
  have exit := (agree.mpr shown).1
  rw [dropped] at exit
  cases exit

end DecimalLisp.CommandLine
