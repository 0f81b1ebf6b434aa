import DecimalLisp.Proofs.Evaluation.Moments
import DecimalLisp.Proofs.Origin

/-!
# What evaluation keeps up

While texts are run one after the other, frames lie inside frames that were made before, up to the
root frame, and no frame binds a name twice. What is entered stands in a text, values that are bound
or in hand hold no procedures but those that forms in the texts made, and no names but such as stand
there. A fault that is raised is one that is reported, and shows nothing but such values.

All this is kept up from one moment to the next. So it holds at every moment that an evaluation
comes to, whether the evaluation ends or not.
-/

namespace DecimalLisp

/-! ## Builtin procedures -/

namespace Builtin

variable {p : Precision} {b : Builtin} {vs : List Value}

/-- The one thing that goes wrong in taking numbers is that some argument is none. -/
theorem numbers_eq_error {fault : Fault} (h : numbers vs = .error fault) :
    ∃ v ∈ vs, fault = .notNumber v := by
  induction vs with
  | nil => cases h
  | cons v rest ih =>
    rw [numbers] at h
    split at h
    · split at h
      · cases h
      · next found =>
        cases h
        obtain ⟨w, mem, same⟩ := ih found
        exact ⟨w, List.mem_cons_of_mem v mem, same⟩
    · cases h
      exact ⟨v, List.mem_cons_self, rfl⟩

theorem last_eq_ok {least : ℕ} {v : Value} (h : last b least vs = .ok v) : v ∈ vs := by
  unfold last at h
  split at h
  · next found =>
    cases h
    exact List.mem_of_getLast? found
  · cases h

theorem last_eq_error {least : ℕ} {fault : Fault} (h : last b least vs = .error fault) :
    fault = .tooFew b least := by
  unfold last at h
  split at h <;> cases h
  rfl

theorem calculate_kept {codes : List String} {n : ℕ} {operation : Operation} {xs : List Decimal}
    {fault : Fault} (h : operation.calculate p xs = .error fault) : fault.Kept codes n := by
  unfold Operation.calculate at h
  split at h
  · cases h
    exact ⟨rfl, rfl, List.forall_mem_nil _⟩
  · split at h <;> cases h
    exact ⟨rfl, rfl, List.forall_mem_nil _⟩

/-- A builtin procedure gives a number, the empty list or one of its arguments. -/
theorem apply_eq_ok {v : Value} (h : b.apply p vs = .ok v) :
    (∃ x, v = .number x) ∨ v = .nil ∨ v ∈ vs := by
  unfold apply at h
  split at h
  · split at h
    · cases h
    · split at h <;> cases h
      exact .inl ⟨_, rfl⟩
  · split at h
    · cases h
    · split at h
      · cases h
      · split at h
        · exact .inr (.inr (last_eq_ok h))
        · cases h
          exact .inr (.inl rfl)
  · exact .inr (.inr (last_eq_ok h))

/-- Whatever goes wrong in a builtin procedure is reported, and shows nothing but arguments. -/
theorem apply_kept {codes : List String} {n : ℕ} (made : ∀ v ∈ vs, v.Made codes n) {fault : Fault}
    (h : b.apply p vs = .error fault) : fault.Kept codes n := by
  have number : ∀ {fault}, numbers vs = .error fault → fault.Kept codes n := by
    intro fault found
    obtain ⟨v, mem, rfl⟩ := numbers_eq_error found
    exact ⟨rfl, rfl, List.forall_mem_singleton.mpr (made v mem)⟩
  unfold apply at h
  split at h
  · split at h
    · next found =>
      cases h
      exact number found
    · split at h
      · cases h
      · next found =>
        cases h
        exact calculate_kept found
  · split at h
    · next found =>
      cases h
      exact number found
    · split at h
      · cases h
        exact ⟨rfl, rfl, List.forall_mem_nil _⟩
      · split at h
        · rw [last_eq_error h]
          exact ⟨rfl, rfl, List.forall_mem_nil _⟩
        · cases h
  · rw [last_eq_error h]
    exact ⟨rfl, rfl, List.forall_mem_nil _⟩

end Builtin

/-! ## Steps -/

/-- What a step may lead to when several texts were run and there are so many frames. -/
def Next.Kept (codes : List String) (n : ℕ) : Next → Prop
  | .value v => v.Made codes n
  | .tail e f => e.WrittenIn codes ∧ f < n

/-- What is kept up by a step that is taken where there are so many frames. -/
def Upholds (codes : List String) (n : ℕ) : Outcome Next → Prop :=
  Outcome.All
    (fun next s => n ≤ s.frames.size ∧ s.frames.Kept codes ∧ next.Kept codes s.frames.size)
    (fun fault s => n ≤ s.frames.size ∧ s.frames.Kept codes ∧ fault.Kept codes s.frames.size)

section Steps

variable {p : Precision} {codes : List String} {s : State} {f : FrameId} {e v : Value}
  {vs : List Value}

theorem upholds_value (kept : s.frames.Kept codes) (made : v.Made codes s.frames.size) :
    Upholds codes s.frames.size (.done (.value v) s) :=
  ⟨le_rfl, kept, made⟩

theorem upholds_failed (kept : s.frames.Kept codes) {fault : Fault}
    (fine : fault.Kept codes s.frames.size) : Upholds codes s.frames.size (.failed fault s) :=
  ⟨le_rfl, kept, fine⟩

/-- Applying a procedure keeps everything up. A body that is left over stands in the form that made
the procedure. -/
theorem applyProcedure_upholds (kept : s.frames.Kept codes) (made : v.Made codes s.frames.size)
    (arguments : ∀ w ∈ vs, w.Made codes s.frames.size) :
    Upholds codes s.frames.size (applyProcedure p v vs s) := by
  have shown := made
  cases made with
  | builtin b =>
    rw [applyProcedure]
    cases given : b.apply p vs with
    | ok w =>
      refine upholds_value kept ?_
      rcases Builtin.apply_eq_ok given with ⟨x, rfl⟩ | rfl | mem
      · exact .number x
      · exact .list (List.forall_mem_nil _)
      · exact arguments w mem
    | error fault => exact upholds_failed kept (Builtin.apply_kept arguments given)
  | @lambda names body others c written there =>
    rw [applyProcedure, Frame.ofCall_symbols]
    split
    · have empty : (Bindings.names []).Nodup := List.nodup_nil
      have distinct := Bindings.nodup_writeAll empty (names.zip vs)
      have entries : ∀ entry ∈ Bindings.writeAll [] (names.zip vs),
          entry.2.Made codes s.frames.size := by
        intro entry mem
        rcases Bindings.of_mem_writeAll mem with none | pair
        · cases none
        · exact arguments _ (List.of_mem_zip pair).2
      have size : (s.frames.push ⟨Bindings.writeAll [] (names.zip vs), some c⟩).size =
        s.frames.size + 1 := Frames.size_push _ _
      refine ⟨size ▸ Nat.le_succ _, kept.push there distinct entries, ?_, ?_⟩
      · exact written.item (by simp)
      · exact size ▸ Nat.lt_succ_self _
    · exact upholds_failed kept ⟨rfl, rfl, List.forall_mem_nil _⟩
  | _ => exact upholds_failed kept ⟨rfl, rfl, List.forall_mem_singleton.mpr shown⟩

/-- A form that does not evaluate a part first keeps everything up. -/
theorem step_form_upholds (form : SpecialForm) {parts : List Value} (kept : s.frames.Kept codes)
    (there : f < s.frames.size)
    (written : (Value.list (.symbol form.name :: parts)).WrittenIn codes) :
    Upholds codes s.frames.size (form.step idle f parts s) := by
  have made : ∀ v ∈ parts, v.Made codes s.frames.size :=
    fun v mem => (written.item (List.mem_cons_of_mem _ mem)).made
  unfold SpecialForm.step
  split
  case h_1 => exact upholds_value kept (.list (List.forall_mem_nil _))
  case h_2 parts _ => exact upholds_value kept (.list made)
  -- These forms evaluate a part first, which does not end here.
  case h_3 | h_5 | h_8 => trivial
  case h_6 name e _ =>
    have shown : name.Made codes s.frames.size := made name List.mem_cons_self
    exact upholds_failed kept ⟨rfl, rfl, List.forall_mem_singleton.mpr shown⟩
  case h_11 formals bodies =>
    cases first : SpecialForm.firstNonSymbol? formals with
    | some other =>
      have formal : other ∈ formals := List.mem_of_find?_eq_some first
      have whole := written.item (List.mem_cons_of_mem _ (List.mem_cons_self (l := bodies)))
      have shown : other.Made codes s.frames.size := (whole.item formal).made
      exact upholds_failed kept ⟨rfl, rfl, List.forall_mem_singleton.mpr shown⟩
    | none =>
      obtain ⟨names, rfl⟩ := SpecialForm.exists_names first
      rcases bodies with _ | ⟨body, _ | ⟨second, others⟩⟩
      · exact upholds_failed kept ⟨rfl, rfl, List.forall_mem_nil _⟩
      · exact upholds_value kept (.lambda names written there)
      · exact ⟨le_rfl, kept, .lambda names written there⟩
  all_goals exact upholds_failed kept ⟨rfl, rfl, List.forall_mem_nil _⟩

/-- A step that does not evaluate a part first keeps everything up. -/
theorem step_upholds (kept : s.frames.Kept codes) (there : f < s.frames.size)
    (written : e.WrittenIn codes) : Upholds codes s.frames.size (step p idle e f s) := by
  cases written.plain with
  | number x => exact upholds_value kept (.number x)
  | symbol name =>
    rw [step, Action.bind_apply]
    cases bound : s.frames.value? f (.symbol name) with
    | some v =>
      rw [Action.lookup_of_some bound]
      exact upholds_value kept (kept.value? bound)
    | none =>
      rw [Action.lookup_of_none bound]
      exact upholds_failed kept ⟨rfl, rfl, List.forall_mem_singleton.mpr (.symbol written)⟩
  | @list items _ =>
    cases items with
    | nil =>
      have empty : (Value.list []).Made codes s.frames.size := .list (List.forall_mem_nil _)
      exact upholds_failed kept ⟨rfl, rfl, List.forall_mem_singleton.mpr empty⟩
    | cons head parts =>
      rw [step]
      cases word : SpecialForm.ofHead? head with
      | none => trivial
      | some form =>
        rw [SpecialForm.ofHead?_eq_some_iff.mp word] at written
        exact step_form_upholds form kept there written

end Steps

/-! ## Moments -/

namespace Pending

/-- The expressions of which one or all may still be entered. -/
def code : Pending → List Value
  | test yes no => [yes, no]
  | define _ _ => []
  | assign _ => []
  | head _ parts => parts
  | argument _ _ parts => parts

/-- The values that are in hand meanwhile. The expression of a definition is one of them. -/
def inHand : Pending → List Value
  | test _ _ => []
  | define _ e => [e]
  | assign _ => []
  | head _ _ => []
  | argument procedure given _ => procedure :: given

/-- What a message may show. The word that an application begins with is shown if its value is no
procedure. -/
def shown : Pending → List Value
  | head word _ => [word]
  | _ => []

/-- What is kept up in what waits. -/
structure Kept (codes : List String) (n : ℕ) (pending : Pending) : Prop where
  /-- Code that waits stands in a text. -/
  code : ∀ e ∈ pending.code, e.WrittenIn codes
  /-- Values in hand may occur. -/
  inHand : ∀ v ∈ pending.inHand, v.Made codes n
  /-- What a message may show may occur. -/
  shown : ∀ v ∈ pending.shown, v.Made codes n

end Pending

namespace Event

/-- The expression that is entered, if one is. -/
def code : Event → List Value
  | enter e _ => [e]
  | _ => []

/-- The value that is given, if one is. -/
def inHand : Event → List Value
  | give v => [v]
  | _ => []

/-- The frame in which an expression is entered, if one is. -/
def inUse : Event → List FrameId
  | enter _ f => [f]
  | _ => []

/-- What is kept up in what happens. -/
def Kept (codes : List String) (n : ℕ) : Event → Prop
  | enter e f => e.WrittenIn codes ∧ f < n
  | give v => v.Made codes n
  | raise fault => fault.Kept codes n

namespace Kept

variable {codes : List String} {n : ℕ} {event : Event} (h : event.Kept codes n)
include h

theorem written {e : Value} (mem : e ∈ event.code) : e.WrittenIn codes := by
  cases event with
  | enter _ _ =>
    rw [List.mem_singleton.mp mem]
    exact h.1
  | _ => cases mem

theorem made {v : Value} (mem : v ∈ event.inHand) : v.Made codes n := by
  cases event with
  | give _ =>
    rw [List.mem_singleton.mp mem]
    exact h
  | _ => cases mem

theorem there {f : FrameId} (mem : f ∈ event.inUse) : f < n := by
  cases event with
  | enter _ _ =>
    rw [List.mem_singleton.mp mem]
    exact h.2
  | _ => cases mem

end Kept

end Event

namespace Moment

/-- The expression that is entered, and those that may be entered later. -/
def code (m : Moment) : List Value :=
  m.event.code ++ m.active.flatMap fun a => a.pending.code

/-- The value that is given, and those that are in hand meanwhile. -/
def inHand (m : Moment) : List Value :=
  m.event.inHand ++ m.active.flatMap fun a => a.pending.inHand

/-- The frames in which something is under way. -/
def inUse (m : Moment) : List FrameId :=
  m.event.inUse ++ m.active.map Activation.frame

end Moment

/-- What is kept up at a moment. -/
structure Moment.Kept (codes : List String) (m : Moment) : Prop where
  /-- In the frames. -/
  frames : m.state.frames.Kept codes
  /-- In what happens. -/
  event : m.event.Kept codes m.state.frames.size
  /-- In what waits, each in a frame that is there. -/
  active : ∀ a ∈ m.active, a.frame < m.state.frames.size ∧
    a.pending.Kept codes m.state.frames.size

section Parts

variable {p : Precision} {codes : List String} {n : ℕ} {e part v : Value}
  {pending waiting : Pending} {f : FrameId} {s : State}

/-- The first part of an expression is one of its items, and so is the code that waits for it. -/
theorem mem_of_firstPart (h : e.firstPart? = some (part, pending)) :
    ∃ items, e = .list items ∧ part ∈ items ∧ pending.code ⊆ items := by
  unfold Value.firstPart? at h
  split at h
  · refine ⟨_, rfl, ?_⟩
    split at h
    · cases h
      exact ⟨List.mem_cons_self, List.subset_cons_self _ _⟩
    · cases h
      exact ⟨by simp, by simp [Pending.code]⟩
    · cases h
      exact ⟨by simp, List.nil_subset _⟩
    · cases h
      exact ⟨by simp, List.nil_subset _⟩
    · cases h
  · cases h

/-- The next part is the first of the code that has waited. The other code goes on waiting. -/
theorem code_of_nextPart (h : pending.nextPart? v = some (part, waiting)) :
    pending.code = part :: waiting.code := by
  unfold Pending.nextPart? at h
  split at h
  · split at h <;> cases h
    rfl
  · cases h
    rfl
  · cases h

/-- Only the part itself is in hand, or may be shown, while the first part is evaluated. -/
theorem inHand_of_firstPart (h : e.firstPart? = some (part, pending)) :
    pending.inHand ⊆ [part] ∧ pending.shown ⊆ [part] := by
  unfold Value.firstPart? at h
  split at h
  · split at h <;> cases h
    · exact ⟨List.nil_subset _, List.Subset.refl _⟩
    · exact ⟨List.nil_subset _, List.nil_subset _⟩
    · exact ⟨List.Subset.refl _, List.nil_subset _⟩
    · exact ⟨List.nil_subset _, List.nil_subset _⟩
  · cases h

/-- The value that was waited for comes to the values in hand. -/
theorem inHand_of_nextPart (h : pending.nextPart? v = some (part, waiting)) :
    waiting.inHand = pending.inHand ++ [v] ∧ waiting.shown = [] := by
  unfold Pending.nextPart? at h
  split at h
  · split at h <;> cases h
    exact ⟨rfl, rfl⟩
  · cases h
    exact ⟨rfl, rfl⟩
  · cases h

/-- The first part of an expression stands where the expression stands, and so does what waits. -/
theorem kept_of_firstPart (h : e.firstPart? = some (part, pending)) (written : e.WrittenIn codes) :
    part.WrittenIn codes ∧ pending.Kept codes n := by
  obtain ⟨items, rfl, mem, code⟩ := mem_of_firstPart h
  obtain ⟨inHand, shown⟩ := inHand_of_firstPart h
  have alone : ∀ v ∈ [part], v.Made codes n :=
    List.forall_mem_singleton.mpr (written.item mem).made
  exact ⟨written.item mem, fun e waits => written.item (code waits),
    fun v there => alone v (inHand there), fun v there => alone v (shown there)⟩

/-- The next part was waiting, and the value that was waited for comes to the values in hand. -/
theorem kept_of_nextPart (h : pending.nextPart? v = some (part, waiting))
    (kept : pending.Kept codes n) (made : v.Made codes n) :
    part.WrittenIn codes ∧ waiting.Kept codes n := by
  obtain ⟨inHand, shown⟩ := inHand_of_nextPart h
  have code := kept.code
  rw [code_of_nextPart h] at code
  obtain ⟨first, others⟩ := List.forall_mem_cons.mp code
  refine ⟨first, others, fun w mem => ?_, fun w mem => ?_⟩
  · rw [inHand, List.mem_append, List.mem_singleton] at mem
    rcases mem with before | rfl
    · exact kept.inHand w before
    · exact made
  · rw [shown] at mem
    cases mem

/-- What is done with the last value that is waited for keeps everything up. -/
theorem resume_upholds (frames : s.frames.Kept codes) (there : f < s.frames.size)
    (kept : pending.Kept codes s.frames.size) (made : v.Made codes s.frames.size) :
    Upholds codes s.frames.size (pending.resume p idle f v s) := by
  cases pending with
  | test yes no =>
    refine ⟨le_rfl, frames, kept.code _ ?_, there⟩
    cases v.isFalse <;> simp [Pending.code]
  | define name e =>
    have size : (s.frames.write f name v).size = s.frames.size := Frames.size_rebind _ _ _
    refine ⟨size.ge, frames.write there name made, ?_⟩
    exact (kept.inHand e List.mem_cons_self).grow size.ge
  | assign name =>
    exact ⟨(Frames.size_rebind _ _ _).ge, frames.write there name made, rfl, rfl,
      List.forall_mem_nil _⟩
  | head word parts =>
    rw [Pending.resume]
    split
    · cases parts with
      | nil => exact applyProcedure_upholds frames made (List.forall_mem_nil _)
      | cons e rest => trivial
    · exact upholds_failed frames ⟨rfl, rfl, kept.shown⟩
  | argument procedure given parts =>
    cases parts with
    | nil =>
      refine applyProcedure_upholds frames (kept.inHand _ List.mem_cons_self) fun w mem => ?_
      rcases List.mem_append.mp mem with before | last
      · exact kept.inHand w (List.mem_cons_of_mem _ before)
      · rw [List.mem_singleton.mp last]
        exact made
    | cons e rest => trivial

end Parts

namespace Moment.Kept

variable {p : Precision} {codes codes' : List String} {m m' : Moment}

/-- Where a step that keeps everything up leads, everything is kept up. -/
theorem of_upholds {active : List Activation} {n : ℕ} {o : Outcome Next}
    (waiting : ∀ a ∈ active, a.frame < n ∧ a.pending.Kept codes n) (upholds : Upholds codes n o)
    (h : o.moment? active = some m) : m.Kept codes := by
  -- The step may have made a frame, and what waits was fine with fewer.
  have later : ∀ {k}, n ≤ k → ∀ a ∈ active, a.frame < k ∧ a.pending.Kept codes k := by
    intro k grown a mem
    obtain ⟨there, kept⟩ := waiting a mem
    exact ⟨there.trans_le grown, kept.code, fun v mem => (kept.inHand v mem).grow grown,
      fun v mem => (kept.shown v mem).grow grown⟩
  cases o with
  | done next s =>
    obtain ⟨grown, frames, kept⟩ := upholds
    cases next <;> cases h <;> exact ⟨frames, kept, later grown⟩
  | failed fault s =>
    obtain ⟨grown, frames, fine⟩ := upholds
    cases h
    exact ⟨frames, fine, later grown⟩
  | unfinished => cases h

/-- What is kept up at a moment is kept up at the next one. -/
theorem next (kept : m.Kept codes) (h : m.next? p = some m') : m'.Kept codes := by
  obtain ⟨frames, event, active⟩ := kept
  unfold next? at h
  split at h
  · next e f waiting s =>
    obtain ⟨written, there⟩ := event
    split at h
    · next part pending found =>
      cases h
      obtain ⟨first, rest⟩ := kept_of_firstPart found written
      exact ⟨frames, ⟨first, there⟩, List.forall_mem_cons.mpr ⟨⟨there, rest⟩, active⟩⟩
    · exact of_upholds active (step_upholds frames there written) h
  · next v f pending waiting s =>
    obtain ⟨⟨there, kept⟩, others⟩ := List.forall_mem_cons.mp active
    split at h
    · next part pending found =>
      cases h
      obtain ⟨first, rest⟩ := kept_of_nextPart found kept event
      exact ⟨frames, ⟨first, there⟩, List.forall_mem_cons.mpr ⟨⟨there, rest⟩, others⟩⟩
    · exact of_upholds others (resume_upholds frames there kept event) h
  · cases h
    exact ⟨frames, event, (List.forall_mem_cons.mp active).2⟩
  · cases h

/-- What is kept up at a moment is kept up at all later ones. -/
theorem reaches (kept : m.Kept codes) (h : Reaches p m m') : m'.Kept codes := by
  induction h with
  | refl => exact kept
  | tail _ last ih => exact ih.next last

/-- All code stands in a text. -/
theorem written (kept : m.Kept codes) {e : Value} (mem : e ∈ m.code) : e.WrittenIn codes := by
  rcases List.mem_append.mp mem with entered | waiting
  · exact kept.event.written entered
  · obtain ⟨a, active, mem⟩ := List.mem_flatMap.mp waiting
    exact (kept.active a active).2.code e mem

/-- All values in hand may occur. -/
theorem made (kept : m.Kept codes) {v : Value} (mem : v ∈ m.inHand) :
    v.Made codes m.state.frames.size := by
  rcases List.mem_append.mp mem with given | waiting
  · exact kept.event.made given
  · obtain ⟨a, active, mem⟩ := List.mem_flatMap.mp waiting
    exact (kept.active a active).2.inHand v mem

/-- All frames in use are there. -/
theorem there (kept : m.Kept codes) {f : FrameId} (mem : f ∈ m.inUse) :
    f < m.state.frames.size := by
  rcases List.mem_append.mp mem with entered | waiting
  · exact kept.event.there entered
  · obtain ⟨a, active, rfl⟩ := List.mem_map.mp waiting
    exact (kept.active a active).1

end Moment.Kept

end DecimalLisp
