import DecimalLisp.Proofs.Likeness.Code
import DecimalLisp.Proofs.Likeness.Exact
import DecimalLisp.Proofs.Likeness.Session

/-!
# Names that nobody asks for

What the root frame binds a name to is of no account for texts that do not ask for the name: those
that do not mention it, and those in which it is the word of a form and stands at the beginning of
lists only. What is quoted never becomes code, so no later text can ask for it either. A form
cannot be shadowed.
-/

namespace DecimalLisp

open Reader Value

/-- A text does not mention a name, or the name is the word of a form and stands in the text at the
beginning of lists only. -/
def Unasked (name code : String) : Prop :=
  ∀ v, parse code = .ok v →
    ¬ v.Mentions name ∨ (∃ form : SpecialForm, form.name = name) ∧ ¬ v.MentionsElsewhere name

/-- The session in which a name is bound in the root frame. -/
def Session.define (session : Session) (name : String) (v : Value) : Session :=
  { session with frames := session.frames.write root name v }

/-- All that answers say, as long as faults are known by their messages only. -/
def Answer.told (answer : Answer) : Except (FaultKind × String) Value × List String :=
  (answer.view id Fault.told, answer.warnings)

namespace Likeness

/-- Runs that do not ask for a name. -/
def without (name : String) : Likeness := exact (· == name) 0 0

/-- A text that does not ask for a name is read alike in both runs. -/
theorem reads_without {name code : String} (unasked : Unasked name code) :
    (without name).Reads code code := by
  unfold Reads
  cases read : parse code with
  | error fault => exact .error rfl
  | ok v =>
    refine .ok (code_self (fun _ => rfl) (plain_of_parse read) fun other hidden asked => ?_)
    obtain rfl : other = name := beq_iff_eq.mp hidden
    rcases unasked v read with unmentioned | ⟨⟨form, rfl⟩, first⟩
    · exact unmentioned asked.mentions
    · exact first asked.mentionsElsewhere

/-- Values of runs that do not ask for a name are the same. -/
theorem without_values_eq {name : String} {n : ℕ} {v w : Value}
    (h : (without name).Values n v w) : v = w := by
  induction h using Values.items_induction with
  | number same | constant same => rw [same]
  | symbol _ | builtin _ => rfl
  | list _ items =>
    have equal := items.imp fun _ _ h => h.2
    rw [List.forall₂_eq_eq_eq] at equal
    rw [equal]
  | lambda names code _ => rw [exact_code_eq code, frame_of_extra_eq_zero rfl]

/-- A hidden name may be bound in one of two like heaps. -/
theorem Heaps.write_hidden {r : Likeness} {frames frames' : Frames} (h : r.Heaps frames frames')
    {f : FrameId} (made : f < frames'.size) {name : String} (hidden : r.hidden name = true)
    (v : Value) : r.Heaps frames (frames'.write f name v) where
  shared_le := h.shared_le
  size := (frames'.size_rebind f _).trans h.size
  outer_lt := h.outer_lt
  outer i hi := (frames'.outer?_rebind f _ _).trans (h.outer i hi)
  bound i hi := by
    rw [Frames.bindings_write _ _ _ _ _ made]
    split
    · next same =>
      rw [← same]
      exact (h.bound i hi).write_hidden hidden v
    · exact h.bound i hi

/-- Answers of runs that do not ask for a name are the same. -/
theorem without_answers_eq {name : String} {least : ℕ} {course course' : List Answer × Session}
    (h : (without name).Courses least course course') :
    course.1.map Answer.told = course'.1.map Answer.told :=
  map_eq_map_of_forall₂ (h.answers.imp fun _ _ alike =>
    Prod.ext (alike.view_eq without_values_eq fun h => h.told_eq fun same => same) alike.warnings)

end Likeness

/-- Wherever a session on a fresh root frame has come to, the binding of a name that its texts do
not ask for leaves the answers to all later texts as they are. A text that defines the name as a
number makes such a binding and nothing else. -/
theorem unasked_unobservable {p : Precision} {name : String} {before after : List String}
    (unasked : ∀ code ∈ before ++ after, Unasked name code) {bound : ℕ} {answers : List Answer}
    {session : Session}
    (come : (Session.standard p).answersWithin bound before = some (answers, session)) :
    (∀ v bound, Option.Rel
      (fun course course' => course.1.map Answer.told = course'.1.map Answer.told)
      (session.answersWithin bound after) ((session.define name v).answersWithin bound after)) ∧
    ∀ x code, parse code = .ok (.list [.symbol "define", .symbol name, .number x]) →
      ∀ bound, session.answersWithin (bound + 2) [code] =
        some ([⟨.ok (.number x), []⟩], session.define name (.number x)) := by
  constructor
  · intro v bound
    -- What the session has come to is like itself, and so it is like itself with the name bound.
    have course := Likeness.come_alike (fun code mem =>
      Likeness.reads_without (unasked code (List.mem_append_left after mem))) come
    have root : Session.root < session.frames.size := course.grown
    have bound' := course.heaps.write_hidden root (beq_self_eq_true name) v
    have later := Likeness.answers_alike (b := session.define name v) rfl bound' root
      (List.forall₂_same.mpr fun code mem =>
        Likeness.reads_without (unasked code (List.mem_append_right before mem)))
      (fun operation x y _ => Likeness.exact_agrees session.precision operation x y) bound
    exact rel_imp later fun _ _ alike => Likeness.without_answers_eq alike
  · intro x code read bound
    rw [Session.answersWithin, Session.run_of_parse read]
    rfl

/-- A procedure chooses as before when the word by which it chooses is bound to a number. -/
theorem unasked_unobservable_if :
    (∀ code ∈ ["(define f (lambda (x) (if x 1 2)))"] ++ ["(f ())", "(f 7)"], Unasked "if" code) ∧
    ∃ answers session,
      (Session.standard .standard).answersWithin 5 ["(define f (lambda (x) (if x 1 2)))"] =
        some (answers, session) ∧
      Option.Rel (fun course course' => course.1.map Answer.told = course'.1.map Answer.told)
        (session.answersWithin 5 ["(f ())", "(f 7)"])
        ((session.define "if" (.number (.ofNat 5))).answersWithin 5 ["(f ())", "(f 7)"]) ∧
      parse "(define if 5)" =
        .ok (.list [.symbol "define", .symbol "if", .number (.ofNat 5)]) ∧
      session.answersWithin 2 ["(define if 5)"] =
        some ([⟨.ok (.number (.ofNat 5)), []⟩], session.define "if" (.number (.ofNat 5))) := by
  have definition : parse "(define f (lambda (x) (if x 1 2)))" = .ok (.list [.symbol "define",
      .symbol "f", .list [.symbol "lambda", .list [.symbol "x"], .list [.symbol "if", .symbol "x",
        .number (.ofNat 1), .number (.ofNat 2)]]]) := rfl
  have first : parse "(f ())" = .ok (.list [.symbol "f", .list []]) := rfl
  have second : parse "(f 7)" = .ok (.list [.symbol "f", .number (.ofNat 7)]) := rfl
  have unasked : ∀ code ∈ ["(define f (lambda (x) (if x 1 2)))"] ++ ["(f ())", "(f 7)"],
      Unasked "if" code := by
    intro code mem v read
    refine .inr ⟨⟨.conditional, rfl⟩, ?_⟩
    simp only [List.cons_append, List.nil_append, List.mem_cons, List.not_mem_nil,
      or_false] at mem
    rcases mem with rfl | rfl | rfl
    · rw [definition] at read
      cases read
      simp
    · rw [first] at read
      cases read
      simp
    · rw [second] at read
      cases read
      simp
  have ends : ((Session.standard .standard).answersWithin 5
      ["(define f (lambda (x) (if x 1 2)))"]).isSome = true := by decide +kernel
  obtain ⟨⟨answers, session⟩, come⟩ := Option.isSome_iff_exists.mp ends
  have law := unasked_unobservable unasked come
  have read : parse "(define if 5)" =
      .ok (.list [.symbol "define", .symbol "if", .number (.ofNat 5)]) := rfl
  exact ⟨unasked, answers, session, come, law.1 (.number (.ofNat 5)) 5, read, law.2 _ _ read 0⟩

end DecimalLisp
