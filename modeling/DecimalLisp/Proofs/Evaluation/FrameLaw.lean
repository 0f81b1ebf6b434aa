import DecimalLisp.Proofs.Evaluation.Steps
import Mathlib.Data.Nat.Basic
import Mathlib.Order.Basic

/-!
# Frame law

Evaluation in a frame writes to that frame and to frames that it makes on the way, and to
no other. What it binds in the frame comes after the names that were there, and the frame
outside a frame stays the one it was made with. So a call, whose body runs in a frame of its
own, leaves all frames that there were as they are, also when it fails half-way.
-/

namespace DecimalLisp

namespace Frames

/-- What may happen to frames while something runs in one of them. -/
structure OnlyIn (f : FrameId) (before after : Frames) : Prop where
  /-- No frame goes away. -/
  size_le : before.size ≤ after.size
  /-- The other frames stay just as they are. -/
  others : ∀ i < before.size, i ≠ f → after.frame? i = before.frame? i
  /-- The names of the frame keep their places, and new ones come after them. -/
  names : (before.bindings f).names <+: (after.bindings f).names
  /-- Every frame stays inside the same frame. -/
  outer : ∀ i < before.size, after.outer? i = before.outer? i

/-- A number that no frame has yet binds nothing. -/
theorem bindings_of_size_le {frames : Frames} {i : FrameId} (h : frames.size ≤ i) :
    frames.bindings i = [] := by
  simp only [bindings, frame?, Array.getElem?_eq_none h, Option.map_none, Option.getD_none]

namespace OnlyIn

variable {f g : FrameId} {a b c : Frames}

theorem refl (f : FrameId) (a : Frames) : OnlyIn f a a :=
  ⟨le_rfl, fun _ _ _ => rfl, List.prefix_rfl, fun _ _ => rfl⟩

/-- What runs on in the same frame, or in one that was not there before, keeps the law. -/
theorem trans_of (h : OnlyIn f a b) (h' : OnlyIn g b c) (hg : g = f ∨ a.size ≤ g) :
    OnlyIn f a c := by
  have others : ∀ i < a.size, i ≠ f → c.frame? i = a.frame? i := by
    intro i hi hf
    have hig : i ≠ g := by
      rcases hg with rfl | hg
      · exact hf
      · omega
    rw [h'.others i (hi.trans_le h.size_le) hig, h.others i hi hf]
  refine ⟨h.size_le.trans h'.size_le, others, ?_, ?_⟩
  · rcases hg with rfl | hg
    · exact h.names.trans h'.names
    · by_cases hf : f < a.size
      · have apart : f ≠ g := (hf.trans_le hg).ne
        have same : c.frame? f = b.frame? f :=
          h'.others f (hf.trans_le h.size_le) apart
        simpa only [bindings, same] using h.names
      · rw [bindings_of_size_le (Nat.le_of_not_lt hf)]
        exact List.nil_prefix
  · intro i hi
    rw [h'.outer i (hi.trans_le h.size_le), h.outer i hi]

theorem trans (h : OnlyIn f a b) (h' : OnlyIn f b c) : OnlyIn f a c :=
  h.trans_of h' (.inl rfl)

/-- Binding a name in the frame keeps the law. -/
theorem write (f : FrameId) (a : Frames) (name : String) (v : Value) :
    OnlyIn f a (a.write f name v) := by
  refine ⟨(a.size_rebind f _).ge, fun i _ hf => ?_, ?_, fun i _ => a.outer?_rebind f i _⟩
  · rw [Frames.write, frame?_rebind, if_neg hf]
  · by_cases made : f < a.size
    · rw [bindings_write a f f name v made, if_pos rfl, Bindings.names_write]
      split
      · exact List.prefix_rfl
      · exact List.prefix_append _ _
    · rw [bindings_of_size_le (Nat.le_of_not_lt made)]
      exact List.nil_prefix

/-- Making a frame keeps the law, and leaves all frames that there were. -/
theorem push (f : FrameId) (a : Frames) (frame : Frame) : OnlyIn f a (a.push frame) := by
  have old : ∀ i < a.size, (a.push frame).frame? i = a.frame? i := by
    intro i hi
    rw [frame?_push, if_neg hi.ne]
  refine ⟨by rw [size_push]; omega, fun i hi _ => old i hi, ?_, fun i hi => ?_⟩
  · by_cases made : f < a.size
    · simp only [bindings, old f made, List.prefix_rfl]
    · rw [bindings_of_size_le (Nat.le_of_not_lt made)]
      exact List.nil_prefix
  · simp only [outer?, old i hi]

end OnlyIn

end Frames

open Frames

/-- The law for what runs in a frame, whether it ends with a value or with a fault. -/
def Keeps {α : Type} (f : FrameId) (s : State) : Outcome α → Prop :=
  Outcome.All (fun _ s' => OnlyIn f s.frames s'.frames)
    (fun _ s' => OnlyIn f s.frames s'.frames)

/-- The law for a step: what it leaves over is to run in the same frame, or in one that was
not there before. -/
def StepKeeps (f : FrameId) (s : State) : Outcome Next → Prop :=
  Outcome.All
    (fun next s' => OnlyIn f s.frames s'.frames ∧
      ∀ e g, next = .tail e g → g = f ∨ s.frames.size ≤ g)
    (fun _ s' => OnlyIn f s.frames s'.frames)

/-- What is done in a frame after something that kept to it keeps to it too. -/
theorem Keeps.bind {α β : Type} {f : FrameId} {s : State} {first : Action α}
    {next : α → Action β} (h : Keeps f s (first s)) (go : ∀ a s', Keeps f s' (next a s')) :
    Keeps f s ((first >>= next) s) := by
  refine Outcome.All.bind h fun a s' hs => (go a s').mono ?_ ?_
  · exact fun _ s'' hs' => hs.trans hs'
  · exact fun _ s'' hs' => hs.trans hs'

/-- A step that begins with something that keeps to its frame keeps the law if the rest of
it does. -/
theorem Keeps.bind_step {α : Type} {f : FrameId} {s : State} {first : Action α}
    {next : α → Action Next} (h : Keeps f s (first s))
    (go : ∀ a s', StepKeeps f s' (next a s')) : StepKeeps f s ((first >>= next) s) := by
  refine Outcome.All.bind h fun a s' hs => (go a s').mono ?_ ?_
  · intro next s'' hs'
    exact ⟨hs.trans hs'.1, fun e g he => (hs'.2 e g he).imp_right hs.size_le.trans⟩
  · exact fun _ s'' hs' => hs.trans hs'

/-- A step to a value keeps the law if nothing was written. -/
theorem stepKeeps_value (f : FrameId) (s : State) (v : Value) :
    StepKeeps f s (.done (.value v) s) :=
  ⟨.refl f s.frames, nofun⟩

/-- A fault keeps the law if nothing was written. -/
theorem stepKeeps_failed (f : FrameId) (s : State) (fault : Fault) :
    StepKeeps f s (.failed fault s) :=
  OnlyIn.refl f s.frames

/-- What is left over for the same frame keeps the law if nothing was written. -/
theorem stepKeeps_tail (f : FrameId) (s : State) (e : Value) :
    StepKeeps f s (.done (.tail e f) s) := by
  refine ⟨.refl f s.frames, fun e' g he => .inl ?_⟩
  cases he
  rfl

/-- Applying a procedure writes to no frame, and a body is to run in a new one. -/
theorem applyProcedure_keeps (p : Precision) (f : FrameId) (v : Value) (vs : List Value)
    (s : State) : StepKeeps f s (applyProcedure p v vs s) := by
  unfold applyProcedure
  split
  · next b =>
    cases b.apply p vs with
    | ok v => exact stepKeeps_value f s v
    | error fault => exact stepKeeps_failed f s fault
  · next formals body c =>
    cases Frame.ofCall formals c vs with
    | error fault => exact stepKeeps_failed f s fault
    | ok frame =>
      refine ⟨.push f s.frames frame, fun e g he => .inr ?_⟩
      cases he
      exact le_refl s.frames.size
  · exact stepKeeps_failed f s _

/-- An evaluator of parts that keeps to the frame of each part. -/
def KeepsToFrame (evaluator : Evaluator) : Prop :=
  ∀ e f s, Keeps f s (evaluator e f s)

namespace KeepsToFrame

variable {p : Precision} {evaluator : Evaluator} (h : KeepsToFrame evaluator)
include h

/-- Arguments keep to the frame that they are evaluated in. -/
theorem evaluateAll (es : List Value) (f : FrameId) (s : State) :
    Keeps f s (DecimalLisp.evaluateAll evaluator f es s) := by
  induction es generalizing s with
  | nil => exact OnlyIn.refl f s.frames
  | cons e rest ih =>
    rw [evaluateAll_cons]
    exact (h e f s).bind fun v s' => (ih s').bind fun vs s'' => OnlyIn.refl f s''.frames

/-- A step of a special form keeps the law. -/
theorem step_form (form : SpecialForm) (parts : List Value) (f : FrameId) (s : State) :
    StepKeeps f s (form.step evaluator f parts s) := by
  unfold SpecialForm.step
  split
  case h_3 test yes no =>
    refine (h test f s).bind_step fun v s' => ?_
    cases v.isFalse <;> exact stepKeeps_tail f s' _
  case h_5 name e =>
    refine (h e f s).bind_step fun v s' => ?_
    exact ⟨.write f s'.frames name v, nofun⟩
  case h_8 name e =>
    refine (h e f s).bind_step fun v s' => ?_
    exact OnlyIn.write f s'.frames name v
  case h_11 formals bodies =>
    cases SpecialForm.firstNonSymbol? formals with
    | some other => exact stepKeeps_failed f s _
    | none =>
      rcases bodies with _ | ⟨body, _ | ⟨second, rest⟩⟩
      · exact stepKeeps_failed f s _
      · exact stepKeeps_value f s _
      · exact ⟨.refl f s.frames, nofun⟩
  case h_1 | h_2 => exact stepKeeps_value f s _
  all_goals exact stepKeeps_failed f s _

/-- Every step keeps the law. -/
theorem step (e : Value) (f : FrameId) (s : State) :
    StepKeeps f s (DecimalLisp.step p evaluator e f s) := by
  unfold DecimalLisp.step
  split
  · next name =>
    have hl : Keeps f s (Action.lookup f (.symbol name) s) := by
      unfold Action.lookup
      split <;> exact OnlyIn.refl f s.frames
    exact hl.bind_step fun v s' => stepKeeps_value f s' v
  · exact stepKeeps_failed f s _
  · next head parts =>
    cases SpecialForm.ofHead? head with
    | some form => exact h.step_form form parts f s
    | none =>
      refine (h head f s).bind_step fun v s' => ?_
      cases v.isProcedure with
      | false => exact stepKeeps_failed f s' _
      | true =>
        exact (h.evaluateAll parts f s').bind_step fun vs s'' =>
          applyProcedure_keeps p f v vs s''
  · exact stepKeeps_value f s _

end KeepsToFrame

/-- Evaluation within any bound keeps to its frame. -/
theorem evaluate_keepsToFrame (p : Precision) (n : ℕ) : KeepsToFrame (evaluate p n) := by
  induction n with
  | zero => exact fun _ _ _ => trivial
  | succ n ih =>
    intro e f s
    have hs := ih.step (p := p) e f s
    rw [evaluate]
    cases hn : step p (evaluate p n) e f s with
    | unfinished => trivial
    | failed fault s' => rw [hn] at hs; exact hs
    | done next s' =>
      rw [hn] at hs
      cases next with
      | value v => exact hs.1
      | tail e' g =>
        -- The rest may run in another frame, but then in one that this evaluation made.
        have rest := ih e' g s'
        exact rest.mono (fun _ _ h => hs.1.trans_of h (hs.2 e' g rfl))
          (fun _ _ h => hs.1.trans_of h (hs.2 e' g rfl))

/-- Wherever evaluation ends, with a value or with a fault, it has written to its own frame
and to new ones only. A call that is run to its end has written to no frame that was there,
neither to the procedure's own nor to the root. -/
theorem evaluation_keeps_frames (p : Precision) (n : ℕ) :
    (∀ e f s s', (evaluate p n e f s).state? = some s' → OnlyIn f s.frames s'.frames) ∧
      ∀ formals body c vs s e g s₁ s',
        applyProcedure p (.lambda formals body c) vs s = .done (.tail e g) s₁ →
        (evaluate p n e g s₁).state? = some s' →
        ∀ i < s.frames.size, s'.frames.frame? i = s.frames.frame? i := by
  have law : ∀ e f s s', (evaluate p n e f s).state? = some s' →
      OnlyIn f s.frames s'.frames := by
    intro e f s s' hs
    have h := evaluate_keepsToFrame p n e f s
    exact h.of_state? hs
  refine ⟨law, ?_⟩
  intro formals body c vs s e g s₁ s' ha hs i hi
  -- The law for the frame that the call makes says nothing of the frames that were there.
  have call := applyProcedure_keeps p s.frames.size (.lambda formals body c) vs s
  rw [ha] at call
  obtain ⟨start, new⟩ := call
  have whole := start.trans_of (law e g s₁ s' hs) (new e g rfl)
  exact whole.others i hi hi.ne

/-- An assignment that is refused has bound its name in its own frame; inside a call it has
bound it in the frame of the call. -/
theorem evaluation_keeps_frames_assign :
    let s : State := ⟨Frames.empty.push ⟨[("x", .number (.ofNat 1))], none⟩, #[]⟩
    let e : Value := .list [.symbol "set!", .symbol "y", .symbol "x"]
    let s' : State := ⟨s.frames.write 0 "y" (.number (.ofNat 1)), #[]⟩
    let inner : Frames := s.frames.push ⟨[("x", .number (.ofNat 7))], some 0⟩
    let s₂ : State := ⟨inner.write 1 "y" (.number (.ofNat 7)), #[]⟩
    (evaluate .standard 2 e 0 s).state? = some s' ∧ OnlyIn 0 s.frames s'.frames ∧
      applyProcedure .standard (.lambda [.symbol "x"] e 0) [.number (.ofNat 7)] s =
        .done (.tail e 1) ⟨inner, #[]⟩ ∧
      (evaluate .standard 2 e 1 ⟨inner, #[]⟩).state? = some s₂ ∧
      ∀ i < s.frames.size, s₂.frames.frame? i = s.frames.frame? i := by
  intro s e s' inner s₂
  have first : (evaluate .standard 2 e 0 s).state? = some s' := rfl
  have call : applyProcedure .standard (.lambda [.symbol "x"] e 0) [.number (.ofNat 7)] s =
      .done (.tail e 1) ⟨inner, #[]⟩ := rfl
  have second : (evaluate .standard 2 e 1 ⟨inner, #[]⟩).state? = some s₂ := rfl
  have law := evaluation_keeps_frames .standard 2
  exact ⟨first, law.1 e 0 s s' first, call, second,
    law.2 _ _ _ _ s e 1 ⟨inner, #[]⟩ s₂ call second⟩

end DecimalLisp
