import DecimalLisp.Evaluation.Action
import DecimalLisp.Proofs.Frames
import DecimalLisp.Proofs.Likeness.Basic

/-!
# Likeness of frames

Two heaps of frames are alike when each frame of the first answers to one of the second that
lies inside the answering frame and binds the same names, in the same order, to like values. Names
that are hidden do not count. Looking a name up, writing one and making a frame for a call do
alike in both.
-/

namespace DecimalLisp

namespace Likeness

variable (r : Likeness)

/-- What a frame binds to names that are not hidden. -/
def visible (bindings : Bindings) : Bindings := bindings.filter fun entry => !r.hidden entry.1

/-- One name with like values. -/
structure Binding (n : ℕ) (entry entry' : String × Value) : Prop where
  name : entry.1 = entry'.1
  value : r.Values n entry.2 entry'.2

/-- Like bindings: the same names in the same order, with like values. -/
def Bound (n : ℕ) (bindings bindings' : Bindings) : Prop :=
  List.Forall₂ (r.Binding n) (r.visible bindings) (r.visible bindings')

/-- Like heaps of frames. -/
structure Heaps (frames frames' : Frames) : Prop where
  /-- The frames that both had at first are there. -/
  shared_le : r.shared ≤ frames.size
  /-- The second heap has some more frames. -/
  size : frames'.size = frames.size + r.extra
  /-- Frames lie inside frames that were made before. -/
  outer_lt : ∀ i o, frames.outer? i = some o → o < i
  /-- Answering frames lie inside answering frames. -/
  outer : ∀ i < frames.size, frames'.outer? (r.frame i) = (frames.outer? i).map r.frame
  /-- Answering frames have like bindings. -/
  bound : ∀ i < frames.size,
    r.Bound frames.size (frames.bindings i) (frames'.bindings (r.frame i))

/-- Like states: the frames are alike, and the same warnings were given. -/
structure States (s s' : State) : Prop where
  frames : r.Heaps s.frames s'.frames
  warnings : LogEntry.linesFrom Level.warning s.log = LogEntry.linesFrom Level.warning s'.log

variable {r} {n : ℕ} {bindings bindings' : Bindings}

/-! ## Bindings -/

/-- Bindings stay alike when frames are added. -/
theorem Bound.mono {m : ℕ} (more : n ≤ m) (h : r.Bound n bindings bindings') :
    r.Bound m bindings bindings' :=
  List.Forall₂.imp (fun _ _ hb => ⟨hb.name, hb.value.mono more⟩) h

/-- Bindings of the same names to like values are alike, whatever is hidden. -/
theorem Bound.of_forall₂ (h : List.Forall₂ (r.Binding n) bindings bindings') :
    r.Bound n bindings bindings' :=
  List.rel_filter (fun entry _ hb => by dsimp only; rw [hb.name]) h

/-- When nothing is hidden like bindings have like entries. -/
theorem Bound.forall₂ (h : r.Bound n bindings bindings') (shown : ∀ name, r.hidden name = false) :
    List.Forall₂ (r.Binding n) bindings bindings' := by
  have all : ∀ bs : Bindings, r.visible bs = bs := fun bs =>
    List.filter_eq_self.mpr fun entry _ => by rw [shown]; rfl
  rwa [Bound, all, all] at h

/-- What is hidden has no bearing on the other names. -/
theorem value?_visible {name : String} (shown : r.hidden name = false) (bindings : Bindings) :
    Bindings.value? (r.visible bindings) name = bindings.value? name := by
  induction bindings with
  | nil => rfl
  | cons first rest ih =>
    obtain ⟨k, v⟩ := first
    rw [visible, List.filter_cons]
    rw [visible, Bindings.value?] at ih
    cases hk : r.hidden k with
    | false =>
      rw [Bindings.value?, Bindings.value?, Bool.not_false, if_pos rfl, List.lookup_cons,
        List.lookup_cons, ih]
      rfl
    | true =>
      have other : (name == k) = false := by
        rw [beq_eq_false_iff_ne]
        rintro rfl
        rw [hk] at shown
        cases shown
      rw [Bindings.value?, Bindings.value?, Bool.not_true, if_neg Bool.false_ne_true, ih,
        List.lookup_cons, other]
      rfl

/-- A name is bound in both or in neither, to like values. -/
theorem value?_of_forall₂ (h : List.Forall₂ (r.Binding n) bindings bindings') (name : String) :
    Option.Rel (r.Values n) (bindings.value? name) (bindings'.value? name) := by
  induction h with
  | nil => exact .none
  | @cons entry entry' rest rest' first _ ih =>
    rw [Bindings.value?, Bindings.value?, List.lookup_cons, List.lookup_cons, ← first.name]
    cases name == entry.1 with
    | true => exact .some first.value
    | false => exact ih

theorem Bound.value? (h : r.Bound n bindings bindings') {name : String}
    (shown : r.hidden name = false) :
    Option.Rel (r.Values n) (bindings.value? name) (bindings'.value? name) := by
  rw [← value?_visible shown bindings, ← value?_visible shown bindings']
  exact value?_of_forall₂ h name

theorem Bound.binds (h : r.Bound n bindings bindings') {name : String}
    (shown : r.hidden name = false) : bindings.binds name = bindings'.binds name := by
  have values := h.value? shown
  rw [Bindings.binds, Bindings.binds]
  generalize bindings.value? name = v, bindings'.value? name = v' at values
  cases values <;> rfl

/-- Writing a name that is not hidden is writing it among those that are not. -/
theorem visible_write (bindings : Bindings) {name : String} (shown : r.hidden name = false)
    (v : Value) : r.visible (bindings.write name v) = (r.visible bindings).write name v := by
  induction bindings with
  | nil =>
    change List.filter _ [(name, v)] = [(name, v)]
    rw [List.filter_cons, shown]
    rfl
  | cons first rest ih =>
    obtain ⟨k, u⟩ := first
    simp only [visible, Bindings.write, writeKey, List.filter_cons] at ih ⊢
    by_cases same : k = name
    · subst same
      simp [shown, writeKey]
    · cases hk : r.hidden k <;> simp [same, hk, writeKey, ih]

/-- Writing a hidden name does not show. -/
theorem visible_write_hidden (bindings : Bindings) {name : String} (h : r.hidden name = true)
    (v : Value) : r.visible (bindings.write name v) = r.visible bindings := by
  induction bindings with
  | nil =>
    change List.filter _ [(name, v)] = []
    rw [List.filter_cons, h]
    rfl
  | cons first rest ih =>
    obtain ⟨k, u⟩ := first
    simp only [visible, Bindings.write, writeKey, List.filter_cons] at ih ⊢
    by_cases same : k = name
    · subst same
      simp [h]
    · simp [same, List.filter_cons, ih]

/-- Like values may be written under one name. -/
theorem write_of_forall₂ (h : List.Forall₂ (r.Binding n) bindings bindings') (name : String)
    {v v' : Value} (value : r.Values n v v') :
    List.Forall₂ (r.Binding n) (bindings.write name v) (bindings'.write name v') := by
  induction h with
  | nil => exact .cons ⟨rfl, value⟩ .nil
  | @cons entry entry' rest rest' first others ih =>
    rw [Bindings.write, Bindings.write, writeKey, writeKey, ← first.name]
    cases entry.1 == name with
    | true => exact .cons ⟨rfl, value⟩ others
    | false => exact .cons ⟨rfl, first.value⟩ ih

theorem Bound.write (h : r.Bound n bindings bindings') (name : String) {v v' : Value}
    (value : r.Values n v v') : r.Bound n (bindings.write name v) (bindings'.write name v') := by
  unfold Bound
  cases shown : r.hidden name with
  | true => rw [visible_write_hidden _ shown, visible_write_hidden _ shown]; exact h
  | false => rw [visible_write _ shown, visible_write _ shown]; exact write_of_forall₂ h name value

/-- A hidden name may be written in one of two frames. -/
theorem Bound.write_hidden (h : r.Bound n bindings bindings') {name : String}
    (hidden : r.hidden name = true) (v : Value) : r.Bound n bindings (bindings'.write name v) := by
  unfold Bound
  rw [visible_write_hidden _ hidden]
  exact h

/-- Like arguments make like bindings under the same parameters. -/
theorem Bound.writeAll (h : r.Bound n bindings bindings') {vs vs' : List Value}
    (values : List.Forall₂ (r.Values n) vs vs') (names : List String) :
    r.Bound n (bindings.writeAll (names.zip vs)) (bindings'.writeAll (names.zip vs')) := by
  induction values generalizing names bindings bindings' with
  | nil => rw [List.zip_nil_right]; exact h
  | @cons v v' vs vs' first _ ih =>
    cases names with
    | nil => exact h
    | cons name names => exact ih (h.write name first) names

/-! ## Frames -/

namespace Heaps

variable {frames frames' : Frames} (h : r.Heaps frames frames')
include h

/-- The next frames answer to each other. -/
theorem frame_size : r.frame frames.size = frames'.size := by
  rw [frame_of_le h.shared_le, h.size]

theorem frame_lt {f : FrameId} (made : f < frames.size) : r.frame f < frames'.size := by
  rw [← h.frame_size]
  exact frame_lt_frame_iff.mpr made

/-- Answering frames have answering ways outward. -/
theorem outwardFrom (steps : ℕ) {f : FrameId} (made : f < frames.size) :
    frames'.outwardFrom steps (r.frame f) = (frames.outwardFrom steps f).map r.frame := by
  induction steps generalizing f with
  | zero => rfl
  | succ steps ih =>
    rw [Frames.outwardFrom, Frames.outwardFrom, h.outer f made]
    cases ho : frames.outer? f with
    | none => rfl
    | some o =>
      have there : o < frames.size := Nat.lt_trans (h.outer_lt f o ho) made
      exact congrArg (r.frame f :: ·) (ih there)

theorem outward {f : FrameId} (made : f < frames.size) :
    frames'.outward (r.frame f) = (frames.outward f).map r.frame := by
  have enough : f < r.frame f + 1 := by
    rw [Nat.lt_succ_iff, frame]
    split
    · exact le_rfl
    · exact Nat.le_add_right f r.extra
  rw [Frames.outward, h.outwardFrom _ made,
    Frames.outwardFrom_eq_of_lt h.outer_lt enough (Nat.lt_succ_self f), Frames.outward]

/-- A name that is not hidden means like values in answering frames, or nothing in both. -/
theorem value? {f : FrameId} (made : f < frames.size) {name : String}
    (shown : r.hidden name = false) :
    Option.Rel (r.Values frames.size) (frames.value? f (.symbol name))
      (frames'.value? (r.frame f) (.symbol name)) := by
  rw [Frames.value?_symbol, Frames.value?_symbol, h.outward made]
  have there : ∀ i ∈ frames.outward f, i < frames.size := fun i hi =>
    Frames.lt_size_of_mem_outwardFrom h.outer_lt made hi
  generalize frames.outward f = way at there
  induction way with
  | nil => exact .none
  | cons i way ih =>
    have bound := h.bound i (there i List.mem_cons_self)
    rw [List.map_cons, List.find?_cons, List.find?_cons, bound.binds shown]
    cases (frames'.bindings (r.frame i)).binds name with
    | true => exact bound.value? shown
    | false => exact ih fun j hj => there j (List.mem_cons_of_mem i hj)

/-- Like values may be written in answering frames. -/
theorem write {f : FrameId} (made : f < frames.size) (name : String) {v v' : Value}
    (value : r.Values frames.size v v') :
    r.Heaps (frames.write f name v) (frames'.write (r.frame f) name v') where
  shared_le := h.shared_le.trans_eq (frames.size_rebind f _).symm
  size := by rw [Frames.write, Frames.write, Frames.size_rebind, Frames.size_rebind, h.size]
  outer_lt i o ho := by
    rw [Frames.write, Frames.outer?_rebind] at ho
    exact h.outer_lt i o ho
  outer i hi := by
    rw [Frames.write, Frames.size_rebind] at hi
    rw [Frames.write, Frames.write, Frames.outer?_rebind, Frames.outer?_rebind, h.outer i hi]
  bound i hi := by
    have same : (frames.write f name v).size = frames.size := frames.size_rebind f _
    rw [same] at hi ⊢
    simp only [Frames.bindings_write _ _ _ _ _ made,
      Frames.bindings_write _ _ _ _ _ (h.frame_lt made), r.frame_injective.eq_iff]
    split
    · exact (h.bound f made).write name value
    · exact h.bound i hi

/-- Frames with like bindings inside answering frames may be added. -/
theorem push {frame frame' : Frame} (bound : r.Bound frames.size frame.bindings frame'.bindings)
    {c : FrameId} (outer : frame.outer = some c) (outer' : frame'.outer = some (r.frame c))
    (made : c < frames.size) : r.Heaps (frames.push frame) (frames'.push frame') where
  shared_le := by rw [Frames.size_push]; exact Nat.le_succ_of_le h.shared_le
  size := by rw [Frames.size_push, Frames.size_push, h.size]; omega
  outer_lt i o ho := by
    rw [Frames.outer?_push] at ho
    split at ho
    · next new =>
      rw [outer, Option.some.injEq] at ho
      rw [← ho, new]
      exact made
    · exact h.outer_lt i o ho
  outer i hi := by
    simp only [Frames.outer?_push, ← h.frame_size, r.frame_injective.eq_iff]
    split
    · rw [outer, outer', Option.map_some]
    · next old =>
      rw [Frames.size_push] at hi
      exact h.outer i (Nat.lt_of_le_of_ne (Nat.le_of_lt_succ hi) old)
  bound i hi := by
    rw [Frames.size_push] at hi ⊢
    simp only [Frames.bindings_push, ← h.frame_size, r.frame_injective.eq_iff]
    split
    · exact bound.mono (Nat.le_succ _)
    · next old =>
      exact (h.bound i (Nat.lt_of_le_of_ne (Nat.le_of_lt_succ hi) old)).mono (Nat.le_succ _)

end Heaps

/-- Like calls of like procedures make like frames, or fail alike. -/
theorem ofCall {n : ℕ} (names : List String) {c : FrameId} {vs vs' : List Value}
    (values : List.Forall₂ (r.Values n) vs vs') :
    Results r.Faults
      (fun frame frame' => r.Bound n frame.bindings frame'.bindings ∧
        frame.outer = some c ∧ frame'.outer = some (r.frame c))
      (Frame.ofCall (names.map .symbol) c vs)
      (Frame.ofCall (names.map .symbol) (r.frame c) vs') := by
  rw [Frame.ofCall_symbols, Frame.ofCall_symbols, ← values.length_eq]
  split
  · exact .ok ⟨(Bound.of_forall₂ .nil).writeAll values names, rfl, rfl⟩
  · exact .error (.refl _)

/-! ## States -/

namespace States

variable {s s' : State} (h : r.States s s')
include h

/-- Like states stay alike under the same note. -/
theorem note (entry : LogEntry) :
    r.States { s with log := s.log.push entry } { s' with log := s'.log.push entry } := by
  refine ⟨h.frames, ?_⟩
  have before := h.warnings
  unfold LogEntry.linesFrom at before ⊢
  rw [Array.toList_push, Array.toList_push, List.filter_append, List.filter_append,
    List.map_append, List.map_append, before]

/-- Like states stay alike under like heaps. -/
theorem withFrames {frames frames' : Frames} (heaps : r.Heaps frames frames') :
    r.States { s with frames := frames } { s' with frames := frames' } :=
  ⟨heaps, h.warnings⟩

end States

end Likeness

end DecimalLisp
