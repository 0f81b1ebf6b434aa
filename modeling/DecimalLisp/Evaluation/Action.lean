import DecimalLisp.Frames
import DecimalLisp.Log

/-!
# Actions

Evaluation reads and writes the frames and the log. It ends with a value or with a
fault, and in both cases what was written stays written. The evaluator counts its steps
down; one that runs out of them has not ended at all, and says so.
-/

namespace DecimalLisp

/-- What evaluation reads and writes. -/
structure State where
  /-- All frames. -/
  frames : Frames
  /-- The notes, the earliest first. -/
  log : Array LogEntry

/-- How an action ends. -/
inductive Outcome (α : Type) where
  /-- With a value. -/
  | done (value : α) (state : State)
  /-- With a fault. -/
  | failed (fault : Fault) (state : State)
  /-- Not within the steps that it was given. -/
  | unfinished

/-- Something to be done in a state. -/
def Action (α : Type) : Type := State → Outcome α

namespace Action

/-- Does nothing and gives a value. -/
def give {α : Type} (value : α) : Action α := fun state => .done value state

/-- Does one thing and, if it ends with a value, another. -/
def andThen {α β : Type} (first : Action α) (next : α → Action β) : Action β := fun state =>
  match first state with
  | .done value state => next value state
  | .failed fault state => .failed fault state
  | .unfinished => .unfinished

instance : Monad Action where
  pure := give
  bind := andThen

/-- Fails. -/
def fail {α : Type} (fault : Fault) : Action α := fun state => .failed fault state

/-- Gives a result that was computed without the state. -/
def ofResult {α : Type} : Except Fault α → Action α
  | .ok value => give value
  | .error fault => fail fault

/-- Looks a name up. -/
def lookup (frame : FrameId) (name : Value) : Action Value := fun state =>
  match state.frames.lookup frame name with
  | .ok value => .done value state
  | .error fault => .failed fault state

/-- Binds a name in one frame. -/
def write (frame : FrameId) (name : String) (value : Value) : Action Unit := fun state =>
  .done () { state with frames := state.frames.write frame name value }

/-- Makes a frame and gives its number. -/
def push (frame : Frame) : Action FrameId := fun state =>
  .done state.frames.size { state with frames := state.frames.push frame }

/-- Makes a note. -/
def note (entry : LogEntry) : Action Unit := fun state =>
  .done () { state with log := state.log.push entry }

@[simp] theorem pure_apply {α : Type} (value : α) (state : State) :
    (pure value : Action α) state = .done value state := rfl

@[simp] theorem bind_apply {α β : Type} (first : Action α) (next : α → Action β)
    (state : State) : (first >>= next) state =
      match first state with
      | .done value state => next value state
      | .failed fault state => .failed fault state
      | .unfinished => .unfinished := rfl

@[simp] theorem fail_apply {α : Type} (fault : Fault) (state : State) :
    (fail fault : Action α) state = .failed fault state := rfl

@[simp] theorem ofResult_ok {α : Type} (value : α) :
    ofResult (.ok value) = (pure value : Action α) := rfl

@[simp] theorem ofResult_error {α : Type} (fault : Fault) :
    ofResult (.error fault) = (fail fault : Action α) := rfl

@[simp] theorem write_apply (frame : FrameId) (name : String) (value : Value)
    (state : State) : write frame name value state =
      .done () { state with frames := state.frames.write frame name value } := rfl

@[simp] theorem push_apply (frame : Frame) (state : State) : push frame state =
    .done state.frames.size { state with frames := state.frames.push frame } := rfl

@[simp] theorem note_apply (entry : LogEntry) (state : State) :
    note entry state = .done () { state with log := state.log.push entry } := rfl

/-- Whether an action, wherever it ends at all, ends just as another one does. -/
def Approximates {α : Type} (first second : Action α) : Prop :=
  ∀ state, first state = .unfinished ∨ first state = second state

namespace Approximates

/-- An action ends as it ends. -/
theorem refl {α : Type} (action : Action α) : Approximates action action :=
  fun _ => .inr rfl

/-- Something done after an action that ends alike ends alike too. -/
theorem bind {α β : Type} {first second : Action α} {next after : α → Action β}
    (start : Approximates first second) (go : ∀ value, Approximates (next value) (after value)) :
    Approximates (first >>= next) (second >>= after) := by
  intro state
  simp only [bind_apply]
  rcases start state with stuck | same
  · exact .inl (by rw [stuck])
  · rw [← same]
    cases first state with
    | done value state => exact go value state
    | failed fault state => exact .inr rfl
    | unfinished => exact .inl rfl

/-- An outcome of the first action is an outcome of the second. -/
theorem eq_of_ends {α : Type} {first second : Action α} (h : Approximates first second)
    {state : State} (ends : first state ≠ .unfinished) : first state = second state :=
  (h state).resolve_left ends

end Approximates

end Action

end DecimalLisp
