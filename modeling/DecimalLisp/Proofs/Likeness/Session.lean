import DecimalLisp.Proofs.Likeness.Evaluation
import DecimalLisp.Proofs.Likeness.Exact
import DecimalLisp.Proofs.Session.Answers

/-!
# Likeness of sessions

Two sessions that begin with like frames and are given texts that are read alike answer alike, and
they end with like frames. Fresh root frames of two precisions are alike if pi is hidden or its
two values are like numbers.
-/

namespace DecimalLisp

namespace Likeness

variable (r : Likeness)

/-- Texts that are read alike: as like code, or not at all and for the same reason. -/
def Reads (code code' : String) : Prop :=
  Results Eq r.Code (Reader.parse code) (Reader.parse code')

/-- Like answers. -/
structure Answered (n : ℕ) (answer answer' : Answer) : Prop where
  result : Results r.Faults (r.Values n) answer.result answer'.result
  warnings : answer.warnings = answer'.warnings

/-- Like courses of two sessions, the first of which began with so many frames. -/
structure Courses (least : ℕ) (course course' : List Answer × Session) : Prop where
  grown : least ≤ course.2.frames.size
  answers : List.Forall₂ (r.Answered course.2.frames.size) course.1 course'.1
  heaps : r.Heaps course.2.frames course'.2.frames

variable {r}

theorem Answered.mono {n m : ℕ} (more : n ≤ m) {answer answer' : Answer}
    (h : r.Answered n answer answer') : r.Answered m answer answer' :=
  ⟨h.result.mono (fun _ _ h => h) fun _ _ h => h.mono more, h.warnings⟩

/-- Like answers look alike to whoever sees no more of values and faults than like ones have in
common. -/
theorem Answered.view_eq {α β : Type} {ofValue ofValue' : Value → α} {ofFault : Fault → β}
    (values : ∀ {n v w}, r.Values n v w → ofValue v = ofValue' w)
    (faults : ∀ {x y}, r.Faults x y → ofFault x = ofFault y) {n : ℕ} {answer answer' : Answer}
    (h : r.Answered n answer answer') :
    answer.view ofValue ofFault = answer'.view ofValue' ofFault := by
  obtain ⟨result, -⟩ := h
  unfold Answer.view
  generalize answer.result = x, answer'.result = y at result
  cases result with
  | ok alike => exact congrArg Except.ok (values alike)
  | error alike => exact congrArg Except.error (faults alike)

theorem Courses.views_eq {α β : Type} {ofValue : Value → α} {ofFault : Fault → β}
    (values : ∀ {n v w}, r.Values n v w → ofValue v = ofValue w)
    (faults : ∀ {x y}, r.Faults x y → ofFault x = ofFault y) {least : ℕ}
    {course course' : List Answer × Session} (h : r.Courses least course course') :
    course.1.map (Answer.view ofValue ofFault) = course'.1.map (Answer.view ofValue ofFault) :=
  map_eq_map_of_forall₂ (h.answers.imp fun _ _ alike => alike.view_eq values faults)

/-- Like faults say the same if no two numbers in the code differ. -/
theorem Faults.told_eq (same : ∀ {x y}, r.literal x y → x = y) {x y : Fault} (h : r.Faults x y) :
    x.told = y.told :=
  Prod.ext h.1 (h.2 same)

/-- Like endings give like answers. -/
theorem Outcomes.answer? {least : ℕ} {o o' : Outcome Value} (h : r.Outcomes least r.ValuesIn o o') :
    Option.Rel (fun ending ending' => least ≤ ending.2.frames.size ∧
        r.Answered ending.2.frames.size ending.1 ending'.1 ∧ r.States ending.2 ending'.2)
      o.answer? o'.answer? := by
  cases h with
  | done grown states alike => exact .some ⟨grown, ⟨.ok alike, states.warnings⟩, states⟩
  | failed grown states alike => exact .some ⟨grown, ⟨.error alike, states.warnings⟩, states⟩
  | unfinished => exact .none

theorem frame_of_extra_eq_zero (h : r.extra = 0) (i : ℕ) : r.frame i = i := by
  rw [frame, h, Nat.add_zero, ite_self]

section Runs

variable (none : r.extra = 0) {a b : Session}
include none

/-- Like sessions answer a text alike when it is read alike. -/
theorem run_alike (heaps : r.Heaps a.frames b.frames) (root : Session.root < a.frames.size)
    {code code' : String} (reads : r.Reads code code')
    (agree : ∀ e, Reader.parse code = .ok e →
      r.AgreesOn a.precision b.precision (a.task code e)) (bound : ℕ) :
    r.Outcomes a.frames.size r.ValuesIn (a.run bound code) (b.run bound code') := by
  unfold Reads at reads
  generalize hx : Reader.parse code = x, hy : Reader.parse code' = y at reads
  cases reads with
  | error same =>
    subst same
    rw [Session.run_of_fault hx, Session.run_of_fault hy]
    exact .failed le_rfl ⟨heaps, rfl⟩ (.refl _)
  | @ok e e' alike =>
    have states : r.States (a.task code e).state (b.task code' e').state := ⟨heaps, rfl⟩
    have ends := evaluate_alike r a.precision b.precision bound alike root states (agree e hx)
    rw [frame_of_extra_eq_zero none] at ends
    rw [Session.run_of_parse hx, Session.run_of_parse hy]
    exact ends

/-- Like sessions answer texts alike that are read alike, if the arithmetic that the first one comes
to agrees. -/
theorem answers_alike (heaps : r.Heaps a.frames b.frames) (root : Session.root < a.frames.size)
    {codes codes' : List String} (reads : List.Forall₂ r.Reads codes codes')
    (agree : ∀ operation x y, a.Calculates codes operation x y →
      r.Agrees a.precision b.precision operation x y) (bound : ℕ) :
    Option.Rel (r.Courses a.frames.size) (a.answersWithin bound codes)
      (b.answersWithin bound codes') := by
  induction reads generalizing a b with
  | nil => exact .some ⟨le_rfl, .nil, heaps⟩
  | @cons code code' codes codes' first _ ih =>
    have ends := (run_alike none heaps root first
      (fun e read operation x y step => agree operation x y (.here read step)) bound).answer?
    rw [Session.answersWithin, Session.answersWithin]
    generalize ran : (a.run bound code).answer? = x, (b.run bound code').answer? = y at ends
    cases ends with
    | none => exact .none
    | @some x y both =>
      obtain ⟨grown, alike, states⟩ := both
      have rest := ih (a := a.resume x.2) (b := b.resume y.2) states.frames (root.trans_le grown)
        fun operation z w step => agree operation z w (.later ran step)
      dsimp only [Option.bind_some]
      generalize (a.resume x.2).answersWithin bound codes = u,
        (b.resume y.2).answersWithin bound codes' = w at rest
      cases rest with
      | none => exact .none
      | some course =>
        exact .some ⟨grown.trans course.grown, .cons (alike.mono course.grown) course.answers,
          course.heaps⟩

end Runs

/-! ## Fresh root frames -/

/-- Like bindings may be put after like bindings. -/
theorem Bound.append {n : ℕ} {front front' back back' : Bindings} (h : r.Bound n front front')
    (h' : r.Bound n back back') : r.Bound n (front ++ back) (front' ++ back') := by
  unfold Bound visible
  rw [List.filter_append, List.filter_append]
  exact List.rel_append h h'

/-- One name is bound alike if it is hidden or its values are alike. -/
theorem bound_single {n : ℕ} {name : String} {v w : Value}
    (h : r.hidden name = true ∨ r.Values n v w) : r.Bound n [(name, v)] [(name, w)] := by
  rcases h with hidden | alike
  · have nothing : ∀ x : Value, r.visible [(name, x)] = [] := fun x => by
      rw [visible, List.filter_cons, hidden]
      rfl
    unfold Bound
    rw [nothing, nothing]
    exact .nil
  · exact .of_forall₂ (.cons ⟨rfl, alike⟩ .nil)

theorem standardBindings_alike {n : ℕ} {p p' : Precision}
    (pi : r.hidden "pi" = true ∨ r.number (Session.pi p) (Session.pi p')) :
    r.Bound n (Session.standardBindings p) (Session.standardBindings p') := by
  refine Bound.append (.of_forall₂ (List.forall₂_same.mpr fun entry mem => ?_))
    (bound_single (pi.imp_right .constant))
  obtain ⟨b, -, rfl⟩ := List.mem_map.mp mem
  exact ⟨rfl, .builtin b⟩

theorem outer?_standard (p : Precision) (i : FrameId) :
    (Session.standard p).frames.outer? i = none := by
  rw [Session.standard, Frames.outer?_push]
  split
  · rfl
  · exact Frames.outer?_of_size_le (Nat.zero_le i)

/-- Fresh root frames are alike if pi is hidden in them or its two values are like numbers. -/
theorem standard_alike (shared : r.shared ≤ 1) (none : r.extra = 0) {p p' : Precision}
    (pi : r.hidden "pi" = true ∨ r.number (Session.pi p) (Session.pi p')) :
    r.Heaps (Session.standard p).frames (Session.standard p').frames where
  shared_le := shared
  size := none ▸ rfl
  outer_lt i o ho := by
    rw [outer?_standard] at ho
    cases ho
  outer i _ := by
    rw [outer?_standard, outer?_standard]
    rfl
  bound i hi := by
    obtain rfl : i = 0 := Nat.lt_one_iff.mp hi
    rw [frame_of_extra_eq_zero none]
    exact standardBindings_alike pi

/-- What a session on a fresh root frame has come to is exactly like itself, if its texts are read
as code that is. -/
theorem come_alike {hidden : String → Bool} {p : Precision} {codes : List String}
    (reads : ∀ code ∈ codes, (exact hidden 0 0).Reads code code) {bound : ℕ}
    {course : List Answer × Session}
    (come : (Session.standard p).answersWithin bound codes = some course) :
    (exact hidden 0 0).Courses 1 course course := by
  have start : (exact hidden 0 0).Heaps (Session.standard p).frames (Session.standard p).frames :=
    standard_alike (Nat.zero_le 1) rfl (.inr rfl)
  have alike := answers_alike rfl start Nat.zero_lt_one (List.forall₂_same.mpr reads)
    (fun operation x y _ => exact_agrees p operation x y) bound
  rw [come] at alike
  cases alike with
  | some alike => exact alike

end Likeness

end DecimalLisp
