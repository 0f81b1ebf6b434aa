import DecimalLisp.Proofs.Evaluation.FrameLaw
import DecimalLisp.Proofs.Likeness.Code
import DecimalLisp.Proofs.Likeness.Session

/-!
# What a session comes to

The states that a session passes through, between its texts and in the middle of an evaluation,
and the values that are in hand there. In all of them frames lie inside frames that were made
before, procedures were made in frames that are there, and their bodies are trees of numbers and
symbols. Such a state is exactly like itself.
-/

namespace DecimalLisp

open Reader Value

/-- Values that may occur where there are so many frames. -/
inductive Value.Sound (n : ℕ) : Value → Prop where
  | number (x) : Sound n (.number x)
  | constant (x) : Sound n (.constant x)
  | symbol (name) : Sound n (.symbol name)
  | list {items} : (∀ v ∈ items, Sound n v) → Sound n (.list items)
  | builtin (b) : Sound n (.builtin b)
  | lambda (names : List String) {body f} : body.Plain → f < n →
      Sound n (.lambda (names.map .symbol) body f)

/-- The states that a session on a fresh root frame comes to, each with the values that are in
hand there: the values of the answers, or the value of the part that has just been evaluated. -/
inductive Visits (p : Precision) : State → List Value → Prop where
  /-- Between two texts. -/
  | between {codes bound answers session}
      (come : (Session.standard p).answersWithin bound codes = some (answers, session)) :
      Visits p session.state (answers.filterMap fun answer => answer.result.toOption)
  /-- When a part of an evaluation begins. -/
  | begun {codes bound answers session code e part}
      (come : (Session.standard p).answersWithin bound codes = some (answers, session))
      (read : parse code = .ok e)
      (path : Relation.ReflTransGen (Part p) (session.task code e) part) : Visits p part.state []
  /-- When a part of an evaluation has a value. -/
  | done {codes bound answers session code e part v s}
      (come : (Session.standard p).answersWithin bound codes = some (answers, session))
      (read : parse code = .ok e)
      (path : Relation.ReflTransGen (Part p) (session.task code e) part)
      (ends : Direct p part.expression part.frame part.state (.done v s)) : Visits p s [v]
  /-- When a part of an evaluation has failed. -/
  | failed {codes bound answers session code e part fault s}
      (come : (Session.standard p).answersWithin bound codes = some (answers, session))
      (read : parse code = .ok e)
      (path : Relation.ReflTransGen (Part p) (session.task code e) part)
      (ends : Direct p part.expression part.frame part.state (.failed fault s)) : Visits p s []

namespace Likeness

/-- Exact likeness in which nothing is hidden. -/
def same (shared extra : ℕ) : Likeness := exact (fun _ => false) shared extra

/-- What holds of the first item of every pair holds of all items of the first list. -/
theorem forall_of_forall₂ {α β : Type} {related : α → β → Prop} {holds : α → Prop} {xs : List α}
    {ys : List β} (h : List.Forall₂ (fun x y => ∃ _ : related x y, holds x) xs ys) :
    ∀ x ∈ xs, holds x :=
  ((List.forall₂_and_left xs ys).mp (h.imp fun _ _ ⟨pair, holds⟩ => ⟨holds, pair⟩)).1

/-- Like code is a tree of numbers and symbols. -/
theorem Code.plain {r : Likeness} {v w : Value} (h : r.Code v w) : v.Plain := by
  induction h using Code.parts_induction with
  | number _ => exact .number _
  | symbol _ => exact .symbol _
  | form form _ parts =>
    refine .list fun v hv => ?_
    rcases List.mem_cons.mp hv with rfl | hv
    · exact .symbol form.name
    · exact forall_of_forall₂ parts v hv
  | list _ parts => exact .list (forall_of_forall₂ parts)

/-- Like values are sound. -/
theorem Values.sound {r : Likeness} {n : ℕ} {v w : Value} (h : r.Values n v w) : v.Sound n := by
  induction h using Values.items_induction with
  | number _ => exact .number _
  | constant _ => exact .constant _
  | symbol name => exact .symbol name
  | list _ items => exact .list (forall_of_forall₂ items)
  | builtin b => exact .builtin b
  | lambda names code made => exact .lambda names code.plain made

section Same

variable {shared extra n : ℕ}

theorem same_code {v : Value} (h : v.Plain) : (same shared extra).Code v v :=
  code_self (fun _ => rfl) h nofun

/-- The frames that both runs had at first answer to themselves. -/
theorem same_fixed : ∀ i < shared, (same shared extra).frame i = i :=
  fun _ h => frame_of_lt h

/-- Sound values are like themselves if their frames answer to themselves. -/
theorem same_values (fixed : ∀ i < n, (same shared extra).frame i = i) {v : Value}
    (h : v.Sound n) : (same shared extra).Values n v v := by
  induction h with
  | number x => exact .number rfl
  | constant x => exact .constant rfl
  | symbol name => exact .symbol name
  | list _ ih => exact .list (List.forall₂_same.mpr ih)
  | builtin b => exact .builtin b
  | @lambda names body f plain made =>
    have alike := Values.lambda names (r := same shared extra) (same_code plain) made
    rwa [fixed f made] at alike

end Same

end Likeness

open Likeness

/-! ## Sound tasks -/

/-- A task whose expression is a tree of numbers and symbols, in a state that is like itself. -/
structure Task.Sound (task : Task) : Prop where
  plain : task.expression.Plain
  made : task.frame < task.state.frames.size
  heaps : (same 0 0).Heaps task.state.frames task.state.frames

section Parts

variable {p : Precision} {e : Value} {f : FrameId} {s : State}

/-- A sound task ends in a state that is like itself. -/
theorem Task.Sound.ends {o : Outcome Value} (h : Task.Sound ⟨e, f, s⟩) (ends : Direct p e f s o) :
    (same 0 0).Outcomes s.frames.size (same 0 0).ValuesIn o o := by
  obtain ⟨n, reached⟩ := ends.eventually.exists
  have alike := evaluate_alike (same 0 0) p p n (same_code h.plain) h.made ⟨h.heaps, rfl⟩
    fun operation x y _ => exact_agrees p operation x y
  rw [frame_of_extra_eq_zero rfl] at alike
  have reached : evaluate p n e f s = o := reached
  rwa [reached] at alike

/-- Sound tasks end in states that are like themselves, one after the other. -/
theorem Task.Sound.endsAll {es : List Value} {o : Outcome (List Value)}
    (plain : ∀ e ∈ es, e.Plain) (made : f < s.frames.size)
    (heaps : (same 0 0).Heaps s.frames s.frames) (ends : DirectAll p es f s o) :
    (same 0 0).Outcomes s.frames.size (fun t => List.Forall₂ ((same 0 0).ValuesIn t)) o o := by
  obtain ⟨n, reached⟩ := ends.eventually.exists
  have alike := evaluateAll_alike (evaluate_alike (same 0 0) p p n) (evaluate_follows p n)
    (List.forall₂_same.mpr fun e mem => same_code (plain e mem)) made ⟨heaps, rfl⟩
    fun before e after vs t _ _ operation x y _ => exact_agrees p operation x y
  rw [frame_of_extra_eq_zero rfl] at alike
  have reached : evaluateAll (evaluate p n) f es s = o := reached
  rwa [reached] at alike

/-- The items of a list that is a tree of numbers and symbols are such trees. -/
theorem plain_of_mem {items : List Value} (h : (Value.list items).Plain) {v : Value}
    (mem : v ∈ items) : v.Plain := by
  cases h with
  | list all => exact all v mem

/-- The parts of a sound task are sound. -/
theorem Part.sound {task part : Task} (h : task.Sound) (first : Part p task part) :
    part.Sound := by
  obtain ⟨plain, made, heaps⟩ := h
  cases first with
  | test | define | assign | head _ => exact ⟨plain_of_mem plain (by simp), made, heaps⟩
  | @branch test _ _ _ f s _ asked =>
    have test : Task.Sound ⟨test, f, s⟩ := ⟨plain_of_mem plain (by simp), made, heaps⟩
    cases test.ends asked with
    | done grown states _ =>
      refine ⟨?_, made.trans_le grown, states.frames⟩
      split <;> exact plain_of_mem plain (by simp)
  | @argument head _ _ _ _ _ f s _ _ _ start _ given =>
    have head : Task.Sound ⟨head, f, s⟩ := ⟨plain_of_mem plain List.mem_cons_self, made, heaps⟩
    cases head.ends start with
    | done grown states _ =>
      have before := Task.Sound.endsAll
        (fun e mem => plain_of_mem plain (List.mem_cons_of_mem _ (List.mem_append_left _ mem)))
        (made.trans_le grown) states.frames given
      cases before with
      | done grown' states' _ =>
        exact ⟨plain_of_mem plain (by simp), made.trans_le (grown.trans grown'), states'.frames⟩
  | @body head _ _ _ _ _ f s _ _ _ _ start given called =>
    have first : Task.Sound ⟨head, f, s⟩ := ⟨plain_of_mem plain List.mem_cons_self, made, heaps⟩
    cases first.ends start with
    | done grown states procedure =>
      have arguments := Task.Sound.endsAll
        (fun e mem => plain_of_mem plain (List.mem_cons_of_mem _ mem))
        (made.trans_le grown) states.frames given
      cases arguments with
      | done grown' states' values =>
        have applied := apply_alike (procedure.mono grown') values states' rfl
          (fun operation _ _ _ y _ t _ _ _ _ => exact_agrees p operation t y)
          fun _ _ _ _ _ _ operation x y _ => exact_agrees p operation x y
        rw [applyProcedure, called] at applied
        cases applied with
        | done _ states'' next =>
          cases next with
          | tail code made' _ => exact ⟨code.plain, made', states''.frames⟩

end Parts

/-! ## States that are visited -/

namespace Visits

variable {p : Precision} {codes : List String} {bound : ℕ} {answers : List Answer}
  {session : Session}

/-- What a session has come to is like itself, and so are its answers. -/
theorem course_alike
    (come : (Session.standard p).answersWithin bound codes = some (answers, session)) :
    (same 0 0).Courses 1 (answers, session) (answers, session) := by
  refine come_alike (fun code _ => ?_) come
  unfold Reads
  cases read : parse code with
  | error fault => exact .error rfl
  | ok v => exact .ok (same_code (plain_of_parse read))

/-- A text that is read is a sound task. -/
theorem task_sound
    (come : (Session.standard p).answersWithin bound codes = some (answers, session))
    {code : String} {e : Value} (read : parse code = .ok e) : (session.task code e).Sound :=
  ⟨plain_of_parse read, (course_alike come).grown, (course_alike come).heaps⟩

/-- All parts of an evaluation of a sound task are sound. -/
theorem parts_sound {task part : Task} (h : task.Sound)
    (path : Relation.ReflTransGen (Part p) task part) : part.Sound := by
  induction path with
  | refl => exact h
  | tail _ last ih => exact last.sound ih

/-- A state that is visited is like itself, and the values that are in hand there are sound. -/
theorem sound {s : State} {given : List Value} (h : Visits p s given) :
    (same 0 0).Heaps s.frames s.frames ∧ ∀ v ∈ given, v.Sound s.frames.size := by
  cases h with
  | @between _ _ answers session come =>
    have course := course_alike come
    refine ⟨course.heaps, fun v mem => ?_⟩
    obtain ⟨answer, answered, value⟩ := List.mem_filterMap.mp mem
    obtain ⟨result, -⟩ := List.forall₂_same.mp course.answers answer answered
    generalize answer.result = x at result value
    cases result with
    | ok alike =>
      cases value
      exact alike.sound
    | error _ => cases value
  | begun come read path => exact ⟨(parts_sound (task_sound come read) path).heaps, nofun⟩
  | done come read path ends =>
    cases (parts_sound (task_sound come read) path).ends ends with
    | done _ states alike =>
      refine ⟨states.frames, fun v mem => ?_⟩
      rw [List.mem_singleton.mp mem]
      exact alike.sound
  | failed come read path ends =>
    cases (parts_sound (task_sound come read) path).ends ends with
    | failed _ states _ => exact ⟨states.frames, nofun⟩

end Visits

/-- What is bound in a heap that is like itself is sound. -/
theorem Likeness.Heaps.sound {frames : Frames} (h : (same 0 0).Heaps frames frames) (i : FrameId)
    {entry : String × Value} (mem : entry ∈ frames.bindings i) : entry.2.Sound frames.size := by
  by_cases made : i < frames.size
  · have bound := h.bound i made
    rw [frame_of_extra_eq_zero rfl] at bound
    exact (List.forall₂_same.mp (bound.forall₂ fun _ => rfl) entry mem).value.sound
  · rw [Frames.bindings_of_size_le (Nat.le_of_not_lt made)] at mem
    cases mem

end DecimalLisp
