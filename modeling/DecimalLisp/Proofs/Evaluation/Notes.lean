import DecimalLisp.Proofs.Evaluation.Steps

/-!
# Notes of an evaluation

Evaluation makes notes and never looks at any. With other notes in front it does the same and leaves
them in front, so what comes one after the other can be told apart by the notes of each.
-/

namespace DecimalLisp

/-- The state with earlier notes in front of its own. -/
def State.after (s : State) (log : Array LogEntry) : State :=
  { s with log := log ++ s.log }

/-- The outcome with earlier notes in front of its own. -/
def Outcome.after {α : Type} (log : Array LogEntry) : Outcome α → Outcome α
  | .done a s => .done a (s.after log)
  | .failed fault s => .failed fault (s.after log)
  | .unfinished => .unfinished

namespace Action

/-- The action ends alike whatever notes there are, and adds its own after them. -/
def AddsNotes {α : Type} (action : Action α) : Prop :=
  ∀ log s, action (s.after log) = (action s).after log

namespace AddsNotes

theorem give {α : Type} (a : α) : AddsNotes (pure a : Action α) := fun _ _ => rfl

theorem fail {α : Type} (fault : Fault) : AddsNotes (Action.fail fault : Action α) :=
  fun _ _ => rfl

theorem ofResult {α : Type} (result : Except Fault α) : AddsNotes (Action.ofResult result) := by
  cases result with
  | ok a => exact give a
  | error fault => exact fail fault

theorem lookup (f : FrameId) (name : Value) : AddsNotes (Action.lookup f name) := by
  intro log s
  change Action.lookup f name ⟨s.frames, log ++ s.log⟩ = _
  unfold Action.lookup
  cases s.frames.lookup f name <;> rfl

theorem write (f : FrameId) (name : String) (v : Value) : AddsNotes (Action.write f name v) :=
  fun _ _ => rfl

theorem push (frame : Frame) : AddsNotes (Action.push frame) := fun _ _ => rfl

theorem note (entry : LogEntry) : AddsNotes (Action.note entry) := by
  intro log s
  have same : (log ++ s.log).push entry = log ++ s.log.push entry := (Array.append_push ..).symm
  exact congrArg (fun notes => Outcome.done () ⟨s.frames, notes⟩) same

/-- Actions one after the other add their notes one after the other. -/
theorem bind {α β : Type} {first : Action α} {next : α → Action β} (h : AddsNotes first)
    (go : ∀ a, AddsNotes (next a)) : AddsNotes (first >>= next) := by
  intro log s
  rw [bind_apply, bind_apply, h log s]
  cases first s with
  | done a s' => exact go a log s'
  | failed fault s' => rfl
  | unfinished => rfl

end AddsNotes

end Action

open DecimalLisp.Action (AddsNotes)

/-- Applying a procedure adds no notes, and takes no account of any. -/
theorem applyProcedure_addsNotes (p : Precision) (v : Value) (vs : List Value) :
    AddsNotes (applyProcedure p v vs) := by
  cases v with
  | builtin b => exact (AddsNotes.ofResult _).bind fun _ => .give _
  | lambda formals body outer =>
    exact (AddsNotes.ofResult _).bind fun _ => (AddsNotes.push _).bind fun _ => .give _
  | _ => exact .fail _

section Evaluator

variable {evaluator : Evaluator} (adds : ∀ e f, AddsNotes (evaluator e f))

include adds

theorem evaluateAll_addsNotes (f : FrameId) (es : List Value) :
    AddsNotes (evaluateAll evaluator f es) := by
  induction es with
  | nil => exact .give _
  | cons e rest ih => exact (adds e f).bind fun _ => ih.bind fun _ => .give _

theorem step_form_addsNotes (form : SpecialForm) (f : FrameId) (parts : List Value) :
    AddsNotes (form.step evaluator f parts) := by
  unfold SpecialForm.step
  split
  case h_1 | h_2 => exact .give _
  case h_3 test yes no => exact (adds test f).bind fun _ => .give _
  case h_5 name e =>
    exact (adds e f).bind fun v => (AddsNotes.write f name v).bind fun _ => .give _
  case h_8 name e =>
    exact (adds e f).bind fun v => (AddsNotes.write f name v).bind fun _ => .fail _
  case h_11 formals bodies =>
    split
    · exact .fail _
    · exact .fail _
    · exact .give _
    · exact (AddsNotes.note _).bind fun _ => .give _
  all_goals exact .fail _

theorem step_addsNotes (p : Precision) (e : Value) (f : FrameId) :
    AddsNotes (step p evaluator e f) := by
  unfold step
  split
  · exact (AddsNotes.lookup f _).bind fun _ => .give _
  · exact .fail _
  · next head parts =>
    split
    · exact step_form_addsNotes adds _ f parts
    · refine (adds head f).bind fun v => ?_
      split
      · exact (evaluateAll_addsNotes adds f parts).bind (applyProcedure_addsNotes p v)
      · exact .fail _
  · exact .give _

end Evaluator

/-- Evaluation within any bound ends alike whatever notes there are, and adds its own after them. -/
theorem evaluate_addsNotes (p : Precision) (n : ℕ) (e : Value) (f : FrameId) :
    AddsNotes (evaluate p n e f) := by
  induction n generalizing e f with
  | zero => exact fun _ _ => rfl
  | succ n ih =>
    rw [evaluate_succ]
    refine (step_addsNotes ih p e f).bind fun next => ?_
    cases next with
    | value v => exact .give v
    | tail e' g => exact ih e' g

end DecimalLisp
