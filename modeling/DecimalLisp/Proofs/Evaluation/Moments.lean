import DecimalLisp.Proofs.Evaluation.Steps
import Mathlib.Logic.Relation

/-!
# Moments of an evaluation

An evaluation passes through moments, one after the other. At each of them an expression is being
entered in a frame, or a value is given, or a fault is raised. Evaluations that are under way
meanwhile wait for a part of their expression. An expression that a step leaves over is entered in
place of the one that the step was taken for, so nothing comes to wait for it.

The moments are those of evaluation as it is defined: it ends with a value or a fault if and only
if its moments come to the one at which that is given or raised with nothing left to wait for it.
Otherwise there is always a next moment.
-/

namespace DecimalLisp

/-- What an evaluation waits for while a part of its expression is evaluated. -/
inductive Pending where
  /-- The test of a conditional with two branches. -/
  | test (yes no : Value)
  /-- What a name is to be defined as, by an expression that the definition gives as written. -/
  | define (name : String) (expression : Value)
  /-- What is to be assigned to a name. -/
  | assign (name : String)
  /-- The head of an application, which is shown if it is no procedure, and has other parts. -/
  | head (word : Value) (parts : List Value)
  /-- An argument of a procedure, after other arguments and before expressions of more. -/
  | argument (procedure : Value) (given : List Value) (parts : List Value)

/-- What is happening at a moment. -/
inductive Event where
  /-- An expression is entered in a frame. -/
  | enter (expression : Value) (frame : FrameId)
  /-- A value is given. -/
  | give (value : Value)
  /-- A fault is raised. -/
  | raise (fault : Fault)

/-- An evaluation that is under way in a frame and waits for a part. -/
structure Activation where
  /-- Where it is under way. -/
  frame : FrameId
  /-- What it waits for. -/
  pending : Pending

/-- A moment of an evaluation. -/
structure Moment where
  /-- What is happening. -/
  event : Event
  /-- The evaluations that wait, the innermost first. -/
  active : List Activation
  /-- What there is. -/
  state : State

/-! ## From moment to moment -/

/-- The part of an expression that is evaluated before anything else is done. -/
def Value.firstPart? : Value → Option (Value × Pending)
  | .list (head :: parts) =>
    match SpecialForm.ofHead? head, parts with
    | none, parts => some (head, .head head parts)
    | some .conditional, [test, yes, no] => some (test, .test yes no)
    | some .define, [.symbol name, e] => some (e, .define name e)
    | some .assign, [.symbol name, e] => some (e, .assign name)
    | _, _ => none
  | _ => none

namespace Pending

/-- The part that is evaluated next once the value that was waited for is there. -/
def nextPart? : Pending → Value → Option (Value × Pending)
  | head _ (e :: rest), v => if v.isProcedure then some (e, argument v [] rest) else none
  | argument procedure given (e :: rest), v => some (e, argument procedure (given ++ [v]) rest)
  | _, _ => none

/-- How a step goes on with the value that was waited for. -/
def resume (p : Precision) (evaluator : Evaluator) (f : FrameId) : Pending → Value → Action Next
  | test yes no, v => pure (.tail (if v.isFalse then no else yes) f)
  | define name e, v => do
    Action.write f name v
    pure (.value e)
  | assign name, v => do
    Action.write f name v
    Action.fail (.malformed .assignment)
  | head word parts, v =>
    if v.isProcedure then evaluateAll evaluator f parts >>= applyProcedure p v
    else Action.fail (.notProcedure word)
  | argument procedure given parts, v =>
    evaluateAll evaluator f parts >>= fun vs => applyProcedure p procedure (given ++ v :: vs)

/-- How many expressions are still to be evaluated. -/
def left : Pending → ℕ
  | head _ parts => parts.length
  | argument _ _ parts => parts.length
  | _ => 0

end Pending

/-- Evaluates nothing. A step that evaluates no part does not need more. -/
def idle : Evaluator := fun _ _ _ => .unfinished

/-- The moment that a step leads to. -/
def Outcome.moment? (active : List Activation) : Outcome Next → Option Moment
  | .done (.value v) s => some ⟨.give v, active, s⟩
  | .done (.tail e f) s => some ⟨.enter e f, active, s⟩
  | .failed fault s => some ⟨.raise fault, active, s⟩
  | .unfinished => none

/-- The moment at which an evaluation has ended. -/
def Outcome.ending? (active : List Activation) : Outcome Value → Option Moment
  | .done v s => some ⟨.give v, active, s⟩
  | .failed fault s => some ⟨.raise fault, active, s⟩
  | .unfinished => none

namespace Moment

/-- The moment after a moment. There is none when a value is given, or a fault raised, and nothing
waits. -/
def next? (p : Precision) : Moment → Option Moment
  | ⟨.enter e f, active, s⟩ =>
    match e.firstPart? with
    | some (part, pending) => some ⟨.enter part f, ⟨f, pending⟩ :: active, s⟩
    | none => (step p idle e f s).moment? active
  | ⟨.give v, ⟨f, pending⟩ :: active, s⟩ =>
    match pending.nextPart? v with
    | some (part, pending) => some ⟨.enter part f, ⟨f, pending⟩ :: active, s⟩
    | none => (pending.resume p idle f v s).moment? active
  | ⟨.raise fault, _ :: active, s⟩ => some ⟨.raise fault, active, s⟩
  | ⟨_, [], _⟩ => none

/-- One moment comes to another, at once or through others. -/
def Reaches (p : Precision) : Moment → Moment → Prop :=
  Relation.ReflTransGen fun m m' => m.next? p = some m'

end Moment

/-! ## Steps by their parts -/

section Parts

variable {p : Precision} {e part v : Value} {pending waiting : Pending} {f : FrameId}

/-- A step evaluates the first part of its expression and goes on with its value. -/
theorem step_of_firstPart (h : e.firstPart? = some (part, pending)) (evaluator : Evaluator) :
    step p evaluator e f = evaluator part f >>= pending.resume p evaluator f := by
  unfold Value.firstPart? at h
  split at h
  · split at h
    · next word =>
      cases h
      rw [step, word]
      rfl
    case h_2 form | h_3 form | h_4 form =>
      cases h
      rw [SpecialForm.ofHead?_eq_some_iff.mp form]
      rfl
    · cases h
  · cases h

/-- A step that has no first part evaluates nothing, and it always leads somewhere. -/
theorem step_of_no_firstPart (h : e.firstPart? = none) (evaluator : Evaluator) (s : State) :
    step p evaluator e f s = step p idle e f s ∧ step p idle e f s ≠ .unfinished := by
  cases e with
  | symbol name =>
    cases bound : s.frames.value? f (.symbol name) with
    | some v => simp [step, Action.lookup_of_some bound]
    | none => simp [step, Action.lookup_of_none bound]
  | list items =>
    cases items with
    | nil => exact ⟨rfl, fun stuck => by cases stuck⟩
    | cons head parts =>
      unfold Value.firstPart? at h
      cases word : SpecialForm.ofHead? head with
      | none => simp only [word, reduceCtorEq] at h
      | some form =>
        simp only [word] at h
        simp only [step, word]
        unfold SpecialForm.step
        split
        case h_3 | h_5 | h_8 => simp only [reduceCtorEq] at h
        case h_11 formals bodies =>
          cases SpecialForm.firstNonSymbol? formals with
          | some other => exact ⟨rfl, fun stuck => by cases stuck⟩
          | none =>
            rcases bodies with _ | ⟨body, _ | ⟨second, others⟩⟩
            all_goals exact ⟨rfl, fun stuck => by cases stuck⟩
        all_goals exact ⟨rfl, fun stuck => by cases stuck⟩
  | _ => exact ⟨rfl, fun stuck => by cases stuck⟩

/-- A step that has the value of a part evaluates the next one and goes on with its value. -/
theorem resume_of_nextPart (h : pending.nextPart? v = some (part, waiting))
    (evaluator : Evaluator) :
    pending.resume p evaluator f v = evaluator part f >>= waiting.resume p evaluator f := by
  unfold Pending.nextPart? at h
  split at h
  · split at h
    · next procedure =>
      cases h
      simp only [Pending.resume, procedure, if_true, evaluateAll_cons, Action.bind_bind,
        Action.give_bind]
      rfl
    · cases h
  · next procedure given _ rest =>
    cases h
    have moved : ∀ u us, given ++ v :: u :: us = given ++ [v] ++ u :: us := by simp
    simp only [Pending.resume, evaluateAll_cons, Action.bind_bind, Action.give_bind, moved]
    rfl
  · cases h

section Onward

variable {α β : Type} (evaluator : Evaluator) (last : Next → Action α) (rest : α → Action β)

/-- What follows a step follows the value of its first part. -/
theorem onward_of_firstPart (h : e.firstPart? = some (part, pending)) :
    step p evaluator e f >>= last >>= rest =
      evaluator part f >>= fun v => pending.resume p evaluator f v >>= last >>= rest := by
  simp only [step_of_firstPart h, Action.bind_bind]

theorem onward_of_nextPart (h : pending.nextPart? v = some (part, waiting)) :
    pending.resume p evaluator f v >>= last >>= rest =
      evaluator part f >>= fun w => waiting.resume p evaluator f w >>= last >>= rest := by
  simp only [resume_of_nextPart h, Action.bind_bind]

end Onward

theorem applyProcedure_ends (p : Precision) (v : Value) (vs : List Value) (s : State) :
    applyProcedure p v vs s ≠ .unfinished := by
  unfold applyProcedure
  split
  · next b => cases b.apply p vs <;> exact fun stuck => by cases stuck
  · next formals body c => cases Frame.ofCall formals c vs <;> exact fun stuck => by cases stuck
  · exact fun stuck => by cases stuck

/-- A step that has the value of its last part evaluates nothing, and it always leads somewhere. -/
theorem resume_of_no_nextPart (h : pending.nextPart? v = none) (evaluator : Evaluator)
    (s : State) : pending.resume p evaluator f v s = pending.resume p idle f v s ∧
      pending.resume p idle f v s ≠ .unfinished := by
  cases pending with
  | head word parts =>
    cases parts with
    | nil =>
      refine ⟨rfl, ?_⟩
      simp only [Pending.resume]
      split
      · exact applyProcedure_ends p v [] s
      · exact fun stuck => by cases stuck
    | cons e rest =>
      have other : ¬ v.isProcedure := by simpa [Pending.nextPart?] using h
      simp [Pending.resume, other]
  | argument procedure given parts =>
    cases parts with
    | nil => exact ⟨rfl, applyProcedure_ends p procedure _ s⟩
    | cons e rest => cases h
  | _ => exact ⟨rfl, fun stuck => by cases stuck⟩

theorem left_lt_of_nextPart (h : pending.nextPart? v = some (part, waiting)) :
    waiting.left < pending.left := by
  unfold Pending.nextPart? at h
  split at h
  · split at h
    · cases h
      simp [Pending.left]
    · cases h
  · cases h
    simp [Pending.left]
  · cases h

end Parts

open Moment

/-! ## Moments of evaluations that end -/

/-- An evaluator whose endings are reached through moments, whatever waits for them. -/
def Covered (p : Precision) (evaluator : Evaluator) : Prop :=
  ∀ e f s active m, (evaluator e f s).ending? active = some m →
    Reaches p ⟨.enter e f, active, s⟩ m

namespace Covered

variable {p : Precision} {evaluator : Evaluator} (h : Covered p evaluator) {f : FrameId}
  {active : List Activation} {m : Moment}
include h

/-- A moment is reached through a part if it is reached from the part's value on. -/
theorem ask {part : Value} {pending : Pending} {next : Value → Action Next} {s : State}
    (go : ∀ v s', (next v s').moment? active = some m →
      Reaches p ⟨.give v, ⟨f, pending⟩ :: active, s'⟩ m)
    (leads : ((evaluator part f >>= next) s).moment? active = some m) :
    Reaches p ⟨.enter part f, ⟨f, pending⟩ :: active, s⟩ m := by
  have covered := h part f s (⟨f, pending⟩ :: active)
  rw [Action.bind_apply] at leads
  cases ended : evaluator part f s with
  | done v s' =>
    rw [ended] at leads covered
    exact (covered _ rfl).trans (go v s' leads)
  | failed fault s' =>
    rw [ended] at leads covered
    cases leads
    exact (covered _ rfl).tail rfl
  | unfinished =>
    rw [ended] at leads
    cases leads

/-- What the rest of a step leads to is reached, by induction on the parts that are left. -/
theorem resume {pending : Pending} {v : Value} {s : State}
    (leads : (pending.resume p evaluator f v s).moment? active = some m) :
    Reaches p ⟨.give v, ⟨f, pending⟩ :: active, s⟩ m := by
  induction left : pending.left using Nat.strongRecOn generalizing pending v s with
  | _ n ih =>
    cases found : pending.nextPart? v with
    | none =>
      rw [(resume_of_no_nextPart found evaluator s).1] at leads
      exact .single (by rw [next?, found]; exact leads)
    | some next =>
      obtain ⟨part, waiting⟩ := next
      rw [resume_of_nextPart found] at leads
      have first : next? p ⟨.give v, ⟨f, pending⟩ :: active, s⟩ =
          some ⟨.enter part f, ⟨f, waiting⟩ :: active, s⟩ := by rw [next?, found]
      have fewer : waiting.left < n := left ▸ left_lt_of_nextPart found
      exact .head first (h.ask (fun v s' later => ih _ fewer later rfl) leads)

/-- What a step leads to is reached. -/
theorem step {e : Value} {s : State}
    (leads : (DecimalLisp.step p evaluator e f s).moment? active = some m) :
    Reaches p ⟨.enter e f, active, s⟩ m := by
  cases found : e.firstPart? with
  | none =>
    rw [(step_of_no_firstPart found evaluator s).1] at leads
    exact .single (by rw [next?, found]; exact leads)
  | some next =>
    obtain ⟨part, waiting⟩ := next
    rw [step_of_firstPart found] at leads
    have first : next? p ⟨.enter e f, active, s⟩ =
        some ⟨.enter part f, ⟨f, waiting⟩ :: active, s⟩ := by rw [next?, found]
    exact .head first (h.ask (fun v s' later => h.resume later) leads)

end Covered

/-- Wherever evaluation ends within a bound, its ending is reached through moments. -/
theorem evaluate_covered (p : Precision) (n : ℕ) : Covered p (evaluate p n) := by
  induction n with
  | zero =>
    intro e f s active m ends
    cases ends
  | succ n ih =>
    intro e f s active m ends
    have first : ∀ m, (step p (evaluate p n) e f s).moment? active = some m →
        Reaches p ⟨.enter e f, active, s⟩ m := fun _ => ih.step
    rw [evaluate_succ, Action.bind_apply] at ends
    cases taken : step p (evaluate p n) e f s with
    | done next s' =>
      rw [taken] at ends first
      cases next with
      | value v => exact first m ends
      | tail e' f' => exact (first _ rfl).trans (ih e' f' s' active m ends)
    | failed fault s' =>
      rw [taken] at ends first
      exact first m ends
    | unfinished =>
      rw [taken] at ends
      cases ends

/-! ## What is left to be done at a moment -/

/-- Carries out what is happening. -/
def Event.run (p : Precision) (n : ℕ) : Event → Action Value
  | .enter e f => evaluate p n e f
  | .give v => pure v
  | .raise fault => Action.fail fault

/-- Goes on with the evaluations that wait for a value, the innermost first. -/
def unwind (p : Precision) (n : ℕ) : List Activation → Value → Action Value
  | [], v => pure v
  | a :: rest, v =>
    a.pending.resume p (evaluate p n) a.frame v >>= Next.finish p n >>= unwind p n rest

/-- How an evaluation ends from one of its moments on. -/
def Moment.run (p : Precision) (n : ℕ) (m : Moment) : Outcome Value :=
  (m.event.run p n >>= unwind p n m.active) m.state

section Run

variable {p : Precision} {n : ℕ}

/-- From the moment that a step leads to one goes on as after the step. -/
theorem run_of_moment? {action : Action Next} {active : List Activation} {s : State} {m : Moment}
    (h : (action s).moment? active = some m) :
    m.run p n = (action >>= Next.finish p n >>= unwind p n active) s := by
  rw [Action.bind_bind, Action.bind_apply]
  cases taken : action s with
  | done next s' =>
    rw [taken] at h
    cases next <;> cases h <;> rfl
  | failed fault s' =>
    rw [taken] at h
    cases h
    rfl
  | unfinished =>
    rw [taken] at h
    cases h

open DecimalLisp.Action (Approximates)

theorem resume_approximates (pending : Pending) (f : FrameId) (v : Value) :
    Approximates (pending.resume p (evaluate p n) f v)
      (pending.resume p (evaluate p (n + 1)) f v) := by
  have parts : ∀ es, Approximates (evaluateAll (evaluate p n) f es)
      (evaluateAll (evaluate p (n + 1)) f es) :=
    fun es => evaluateAll_approximates (evaluate_approximates_succ p n) es
  cases pending with
  | head word rest =>
    simp only [Pending.resume]
    split
    · exact (parts rest).bind fun _ => .refl _
    · exact .refl _
  | argument procedure given rest => exact (parts rest).bind fun _ => .refl _
  | _ => exact .refl _

theorem finish_approximates (next : Next) :
    Approximates (next.finish p n) (next.finish p (n + 1)) := by
  cases next with
  | value v => exact .refl _
  | tail e f => exact evaluate_approximates_succ p n e f

theorem unwind_approximates (active : List Activation) (v : Value) :
    Approximates (unwind p n active v) (unwind p (n + 1) active v) := by
  induction active generalizing v with
  | nil => exact .refl _
  | cons a rest ih =>
    exact ((resume_approximates a.pending a.frame v).bind finish_approximates).bind ih

/-- What ends from the next moment on ends in the same way from the moment before it. -/
theorem Moment.run_next {m m' : Moment} (h : m.next? p = some m')
    (ends : m'.run p n ≠ .unfinished) : m.run p (n + 1) = m'.run p n := by
  -- Only entering an expression takes a step more. Elsewhere a larger bound does no harm.
  unfold Moment.next? at h
  split at h
  · next e f active s =>
    have onward : m'.run p n =
        (step p (evaluate p n) e f >>= Next.finish p n >>= unwind p n active) s := by
      split at h
      · next part pending found =>
        cases h
        exact (congrFun (onward_of_firstPart (evaluate p n) _ _ found) s).symm
      · next found =>
        rw [← (step_of_no_firstPart found (evaluate p n) s).1] at h
        exact run_of_moment? h
    rw [onward] at ends ⊢
    rw [Moment.run, Event.run, evaluate_succ]
    have step := Approximates.refl (step p (evaluate p n) e f >>= Next.finish p n)
    exact ((step.bind (unwind_approximates active)).eq_of_ends ends).symm
  · next v f pending active s =>
    have onward : m'.run p n =
        (pending.resume p (evaluate p n) f v >>= Next.finish p n >>= unwind p n active) s := by
      split at h
      · next part waiting found =>
        cases h
        exact (congrFun (onward_of_nextPart (evaluate p n) _ _ found) s).symm
      · next found =>
        rw [← (resume_of_no_nextPart found (evaluate p n) s).1] at h
        exact run_of_moment? h
    rw [onward] at ends ⊢
    exact ((unwind_approximates (⟨f, pending⟩ :: active) v).eq_of_ends ends).symm
  · cases h
    rfl
  · cases h

/-- What ends from a later moment on ends in the same way from the moments before it. -/
theorem Moment.run_of_reaches {m m' : Moment} (h : Reaches p m m')
    (ends : m'.run p n ≠ .unfinished) : ∃ k, m.run p k = m'.run p n := by
  induction h using Relation.ReflTransGen.head_induction_on with
  | refl => exact ⟨n, rfl⟩
  | head first _ ih =>
    obtain ⟨k, same⟩ := ih
    exact ⟨k + 1, (Moment.run_next first (same ▸ ends)).trans same⟩

end Run

/-! ## Adequacy -/

/-- At the moment at which an evaluation has ended there is nothing left but its ending. -/
theorem run_of_ending {p : Precision} {o : Outcome Value} {m : Moment}
    (ending : o.ending? [] = some m) (n : ℕ) : m.run p n = o ∧ o ≠ .unfinished := by
  cases o <;> cases ending <;> exact ⟨rfl, nofun⟩

/-- Evaluation ends in some way if and only if its moments come to that ending. -/
theorem evaluate_ends_iff_reaches {p : Precision} {e : Value} {f : FrameId} {s : State}
    {o : Outcome Value} {m : Moment} (ending : o.ending? [] = some m) :
    (∃ n, evaluate p n e f s = o) ↔ Reaches p ⟨.enter e f, [], s⟩ m := by
  constructor
  · rintro ⟨n, rfl⟩
    exact evaluate_covered p n e f s [] m ending
  · intro reached
    obtain ⟨last, ended⟩ := run_of_ending (p := p) ending 0
    obtain ⟨k, same⟩ := Moment.run_of_reaches reached (last ▸ ended)
    have whole : Moment.run p k ⟨.enter e f, [], s⟩ = evaluate p k e f s :=
      congrFun (Action.bind_give (evaluate p k e f)) s
    exact ⟨k, whole.symm.trans (same.trans last)⟩

/-- An evaluation that has not ended has a next moment. -/
theorem Moment.next?_eq_none_iff {p : Precision} {m : Moment} :
    m.next? p = none ↔ ∃ o : Outcome Value, o.ending? [] = some m := by
  have leads : ∀ {o : Outcome Next} active, o ≠ .unfinished → o.moment? active ≠ none := by
    intro o active ended
    cases o with
    | done next s => cases next <;> exact Option.some_ne_none _
    | failed fault s => exact Option.some_ne_none _
    | unfinished => exact absurd rfl ended
  constructor
  · intro last
    unfold next? at last
    split at last
    · next e f active s =>
      split at last
      · cases last
      · next found => exact absurd last (leads active (step_of_no_firstPart found idle s).2)
    · next v f pending active s =>
      split at last
      · cases last
      · next found => exact absurd last (leads active (resume_of_no_nextPart found idle s).2)
    · cases last
    · next event s entered =>
      cases event with
      | enter e f => exact absurd rfl (entered e f)
      | give v => exact ⟨.done v s, rfl⟩
      | raise fault => exact ⟨.failed fault s, rfl⟩
  · rintro ⟨o, ending⟩
    cases o <;> cases ending <;> rfl

/-- There is one moment after a moment, so an evaluation that ends comes to its ending from each of
its moments. -/
theorem Moment.run_of_evaluate {p : Precision} {e : Value} {f : FrameId} {s : State}
    {o : Outcome Value} {m last : Moment} (ending : o.ending? [] = some last)
    (ends : ∃ n, evaluate p n e f s = o) (reached : Reaches p ⟨.enter e f, [], s⟩ m) :
    ∃ k, m.run p k = o := by
  have onward : Reaches p m last := by
    have unique : Relator.RightUnique fun m m' : Moment => m.next? p = some m' :=
      fun _ _ _ => Option.mem_unique
    rcases Relation.ReflTransGen.total_of_right_unique unique reached
      ((evaluate_ends_iff_reaches ending).mp ends) with onward | back
    · exact onward
    · rcases back.cases_head with rfl | ⟨after, next, -⟩
      · exact .refl
      · rw [Moment.next?_eq_none_iff.mpr ⟨o, ending⟩] at next
        cases next
  obtain ⟨settled, ended⟩ := run_of_ending (p := p) ending 0
  rw [← settled] at ended ⊢
  exact Moment.run_of_reaches onward ended

end DecimalLisp
