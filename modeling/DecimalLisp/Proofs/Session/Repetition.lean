import DecimalLisp.Proofs.Session.Visits

/-!
# Calls can be repeated

A call leaves all frames that were there as they are, so a second call of the same procedure with
the same arguments finds what the first one found. It goes the same way and makes frames with other
numbers. Its fault is the same, and its value is the same but for the numbers of those frames. So
it is with any number of calls one after the other.
-/

namespace DecimalLisp

/-! ## Calls -/

/-- A call of a procedure, run to its end. -/
def call (p : Precision) (bound : ℕ) (procedure : Value) (arguments : List Value) :
    Action Value :=
  applyProcedure p procedure arguments >>= Next.finish p bound

/-- The answer to a call and the frames after it, if it ends within the bound. -/
def callWithin (p : Precision) (bound : ℕ) (procedure : Value) (arguments : List Value)
    (frames : Frames) : Option (Answer × Frames) :=
  (call p bound procedure arguments ⟨frames, #[]⟩).answer?.map fun ending =>
    (ending.1, ending.2.frames)

/-- The answers to several calls one after the other and the frames after them. -/
def callsWithin (p : Precision) (bound : ℕ) (procedure : Value) (arguments : List Value) :
    ℕ → Frames → Option (List Answer × Frames)
  | 0, frames => some ([], frames)
  | times + 1, frames =>
    (callWithin p bound procedure arguments frames).bind fun first =>
      (callsWithin p bound procedure arguments times first.2).map fun rest =>
        (first.1 :: rest.1, rest.2)

/-! ## Other numbers for frames -/

mutual

/-- A value in which frames have other numbers. -/
def Value.rename (ρ : FrameId → FrameId) : Value → Value
  | .number x => .number x
  | .constant x => .constant x
  | .symbol name => .symbol name
  | .list items => .list (renameAll ρ items)
  | .builtin b => .builtin b
  | .lambda formals body frame => .lambda formals body (ρ frame)
  | .text content => .text content

/-- Values in which frames have other numbers. -/
def Value.renameAll (ρ : FrameId → FrameId) : List Value → List Value
  | [] => []
  | v :: rest => rename ρ v :: renameAll ρ rest

end

/-- A frame in which frames have other numbers. -/
def Frame.rename (ρ : FrameId → FrameId) (frame : Frame) : Frame :=
  ⟨frame.bindings.map fun entry => (entry.1, entry.2.rename ρ), frame.outer.map ρ⟩

/-- The numbers of frames when so many more are made before those from the number `shared` on. -/
def later (shared extra : ℕ) (i : FrameId) : FrameId :=
  if i < shared then i else i + extra

/-- A second call that goes as a first one did, in frames with other numbers. -/
structure Repeats (ρ : FrameId → FrameId) (first second : Answer × Frames) : Prop where
  /-- Different frames have different numbers in both. -/
  injective : Function.Injective ρ
  /-- The same value but for the numbers of frames, or a fault that says the same. -/
  result : second.1.view id Fault.told = first.1.view (Value.rename ρ) Fault.told
  /-- The same text. -/
  text : second.1.view Value.print Fault.told = first.1.view Value.print Fault.told
  /-- The same warnings. -/
  warnings : second.1.warnings = first.1.warnings
  /-- All frames after the first call, those that it made among them, are there with their other
  numbers after the second one. -/
  frames : ∀ i < first.2.size, second.2.frame? (ρ i) = (first.2.frame? i).map (Frame.rename ρ)

open Likeness

/-! ## Exact likeness as renaming -/

theorem Value.renameAll_eq (ρ : FrameId → FrameId) (vs : List Value) :
    renameAll ρ vs = vs.map (rename ρ) := by
  induction vs with
  | nil => rfl
  | cons v rest ih => rw [renameAll, ih, List.map_cons]

namespace Likeness

variable {shared extra : ℕ}

/-- Values that are exactly alike are the same but for the numbers of frames. -/
theorem rename_of_same {n : ℕ} {v w : Value} (h : (same shared extra).Values n v w) :
    v.rename (later shared extra) = w := by
  induction h using Values.items_induction with
  | number equal | constant equal => rw [equal]; rfl
  | symbol _ | builtin _ => rfl
  | list _ items =>
    have equal := items.imp fun _ _ h => h.2
    rw [← List.forall₂_map_left_iff, List.forall₂_eq_eq_eq] at equal
    rw [Value.rename, Value.renameAll_eq, equal]
  | lambda names code _ =>
    rw [← exact_code_eq code]
    rfl

/-- Frames of heaps that are exactly alike are the same but for the numbers of frames. -/
theorem Heaps.frame?_later {frames frames' : Frames} (h : (same shared extra).Heaps frames frames')
    {i : FrameId} (made : i < frames.size) :
    frames'.frame? (later shared extra i) =
      (frames.frame? i).map (Frame.rename (later shared extra)) := by
  have entries := ((h.bound i made).forall₂ fun _ => rfl).imp fun entry entry' both =>
    show (entry.1, entry.2.rename (later shared extra)) = entry' from
      Prod.ext both.name (rename_of_same both.value)
  rw [← List.forall₂_map_left_iff, List.forall₂_eq_eq_eq] at entries
  have made' : later shared extra i < frames'.size := h.frame_lt made
  have outer : frames'.outer? (later shared extra i) = _ := h.outer i made
  rw [Frames.frame?_eq_some made, Frames.frame?_eq_some made', Option.map_some, Frame.rename,
    entries, outer]
  rfl

end Likeness

/-! ## What a call does to frames -/

namespace Frames

/-- All frames are there as they were, perhaps with others after them. -/
structure Extends (before after : Frames) : Prop where
  size_le : before.size ≤ after.size
  frame? : ∀ i < before.size, after.frame? i = before.frame? i

theorem Extends.trans {a b c : Frames} (h : Extends a b) (h' : Extends b c) : Extends a c :=
  ⟨h.size_le.trans h'.size_le, fun i hi => by
    rw [h'.frame? i (hi.trans_le h.size_le), h.frame? i hi]⟩

theorem Extends.bindings {a b : Frames} (h : Extends a b) {i : FrameId} (made : i < a.size) :
    b.bindings i = a.bindings i := by
  rw [Frames.bindings, h.frame? i made]
  rfl

theorem Extends.outer? {a b : Frames} (h : Extends a b) {i : FrameId} (made : i < a.size) :
    b.outer? i = a.outer? i := by
  rw [Frames.outer?, h.frame? i made]
  rfl

/-- What keeps to a frame that is not there yet leaves all frames as they are. -/
theorem OnlyIn.extends {before after : Frames} (h : OnlyIn before.size before after) :
    Extends before after :=
  ⟨h.size_le, fun i hi => h.others i hi hi.ne⟩

end Frames

/-- A call writes to no frame that was there. -/
theorem call_keeps (p : Precision) (bound : ℕ) (v : Value) (vs : List Value) (s : State) :
    Keeps s.frames.size s (call p bound v vs s) := by
  refine Outcome.All.bind (applyProcedure_keeps p s.frames.size v vs s) fun next s' step => ?_
  obtain ⟨start, place⟩ := step
  cases next with
  | value v => exact start
  | tail e f =>
    have rest := evaluate_keepsToFrame p bound e f s'
    exact rest.mono (fun _ _ h => start.trans_of h (place e f rfl))
      fun _ _ h => start.trans_of h (place e f rfl)

/-- After a call that ends all frames are there as they were. -/
theorem extends_of_callWithin {p : Precision} {bound : ℕ} {v : Value} {vs : List Value}
    {frames : Frames} {ending : Answer × Frames}
    (ends : callWithin p bound v vs frames = some ending) : frames.Extends ending.2 := by
  obtain ⟨⟨answer, s⟩, reached, rfl⟩ := Option.map_eq_some_iff.mp ends
  have kept := call_keeps p bound v vs ⟨frames, #[]⟩
  generalize call p bound v vs ⟨frames, #[]⟩ = o at reached kept
  cases o with
  | done w s' =>
    cases reached
    exact kept.extends
  | failed fault s' =>
    cases reached
    exact kept.extends
  | unfinished => cases reached

/-! ## Two calls -/

namespace Likeness

/-- Like calls end alike. -/
theorem call_alike {r : Likeness} {p : Precision}
    (agree : ∀ operation x y, r.Agrees p p operation x y) {v w : Value} {vs ws : List Value}
    {s s' : State} (procedure : v.isProcedure = true) (hv : r.ValuesIn s v w)
    (hvs : List.Forall₂ (r.ValuesIn s) vs ws) (states : r.States s s') (bound : ℕ) :
    r.Outcomes s.frames.size r.ValuesIn (call p bound v vs s) (call p bound w ws s') := by
  have step : r.Outcomes s.frames.size (r.Nexts p p) (applyProcedure p v vs s)
      (applyProcedure p w ws s') :=
    apply_alike hv hvs states procedure
      (fun operation _ _ _ y _ t _ _ _ _ => agree operation t y)
      fun _ _ _ _ _ _ operation x y _ => agree operation x y
  refine step.bind fun next next' t t' _ _ states' places => ?_
  cases places with
  | value alike => exact .done le_rfl states' alike
  | tail code made agreed => exact evaluate_alike r p p bound code made states' agreed

/-- Frames that others were added to are exactly alike to what they were. -/
theorem same_of_extends {frames frames' : Frames} (h : (same 0 0).Heaps frames frames)
    (more : frames.Extends frames') :
    (same frames.size (frames'.size - frames.size)).Heaps frames frames' where
  shared_le := le_rfl
  size := (Nat.add_sub_of_le more.size_le).symm
  outer_lt := h.outer_lt
  outer i hi := by
    rw [same_fixed i hi, more.outer? hi]
    cases ho : frames.outer? i with
    | none => rfl
    | some o => rw [Option.map_some, same_fixed o ((h.outer_lt i o ho).trans hi)]
  bound i hi := by
    rw [same_fixed i hi, more.bindings hi]
    exact .of_forall₂ (List.forall₂_same.mpr fun entry mem =>
      ⟨rfl, same_values same_fixed (h.sound i mem)⟩)

end Likeness

section Repeated

variable {p : Precision} {bound : ℕ} {frames : Frames} {v : Value} {vs : List Value}
  {first : Answer × Frames} (heaps : (same 0 0).Heaps frames frames)
  (procedure : v.isProcedure = true) (known : v.Sound frames.size)
  (given : ∀ u ∈ vs, u.Sound frames.size)
  (ends : callWithin p bound v vs frames = some first)
include heaps procedure known given ends

/-- When a call has ended it ends again wherever all frames are there that it found, and it goes as
it did before. -/
theorem callWithin_again {frames' : Frames} (more : frames.Extends frames') :
    ∃ second, callWithin p bound v vs frames' = some second ∧
      Repeats (later frames.size (frames'.size - frames.size)) first second := by
  let r := same frames.size (frames'.size - frames.size)
  have states : r.States ⟨frames, #[]⟩ ⟨frames', #[]⟩ := ⟨same_of_extends heaps more, rfl⟩
  have hv : r.ValuesIn ⟨frames, #[]⟩ v v := same_values same_fixed known
  have hvs : List.Forall₂ (r.ValuesIn ⟨frames, #[]⟩) vs vs :=
    List.forall₂_same.mpr fun u mem => same_values same_fixed (given u mem)
  have agree : ∀ operation x y, r.Agrees p p operation x y := exact_agrees p
  have alike := (call_alike agree procedure hv hvs states bound).answer?
  obtain ⟨ending, reached, rfl⟩ := Option.map_eq_some_iff.mp ends
  unfold callWithin
  rw [reached] at alike
  generalize (call p bound v vs ⟨frames', #[]⟩).answer? = x at alike
  cases alike with
  | some both =>
    obtain ⟨-, answered, states⟩ := both
    refine ⟨_, rfl, r.frame_injective, ?_, ?_, answered.warnings.symm,
      fun i made => states.frames.frame?_later made⟩
    · exact (answered.view_eq rename_of_same fun h => h.told_eq fun equal => equal).symm
    · exact (answered.view_eq (fun h => h.print_eq) fun h => h.told_eq fun equal => equal).symm

/-- So calls end that are made one after the other. -/
theorem callsWithin_again {frames' : Frames} (more : frames.Extends frames') (times : ℕ) :
    ∃ answers last, callsWithin p bound v vs times frames' = some (answers, last) ∧
      frames.Extends last := by
  induction times generalizing frames' with
  | zero => exact ⟨[], frames', rfl, more⟩
  | succ times ih =>
    obtain ⟨second, again, -⟩ := callWithin_again heaps procedure known given ends more
    obtain ⟨answers, last, rest, more'⟩ := ih (more.trans (extends_of_callWithin again))
    refine ⟨second.1 :: answers, last, ?_, more'⟩
    rw [callsWithin, again, Option.bind_some, rest]
    rfl

end Repeated

/-- In every state that a session comes to, the values in hand and those that are bound are sound.
When a call of a procedure that was made by a form ends there, on sound arguments, any number of
further calls end too, and each goes as the first one did: with the same fault or with the same
value but for the numbers of the frames that the calls have made, and with the same warnings. -/
theorem call_repeatable {p : Precision} {s : State} {inHand : List Value}
    (visited : Visits p s inHand) :
    (∀ v ∈ inHand, v.Sound s.frames.size) ∧
    (∀ i, ∀ entry ∈ s.frames.bindings i, entry.2.Sound s.frames.size) ∧
    ∀ formals body c, (Value.lambda formals body c).Sound s.frames.size →
      ∀ vs : List Value, (∀ v ∈ vs, v.Sound s.frames.size) →
      ∀ bound first, callWithin p bound (.lambda formals body c) vs s.frames = some first →
      ∀ times, ∃ answers between second,
        callsWithin p bound (.lambda formals body c) vs times first.2 = some (answers, between) ∧
        callWithin p bound (.lambda formals body c) vs between = some second ∧
        Repeats (later s.frames.size (between.size - s.frames.size)) first second := by
  obtain ⟨heaps, sound⟩ := visited.sound
  refine ⟨sound, fun i entry mem => heaps.sound i mem, ?_⟩
  intro formals body c known vs given bound first ends times
  have more := extends_of_callWithin ends
  obtain ⟨answers, between, calls, more'⟩ :=
    callsWithin_again heaps rfl known given ends more times
  obtain ⟨second, again, repeats⟩ := callWithin_again heaps rfl known given ends more'
  exact ⟨answers, between, second, calls, again, repeats⟩

/-- A procedure that makes procedures makes the same one again, in a frame of its own. -/
theorem call_repeatable_adder :
    ∃ body answers session first,
      Reader.parse "(lambda (y) (+ x y))" = .ok body ∧
      (Session.standard .standard).answersWithin 5
        ["(define add (lambda (x) (lambda (y) (+ x y))))"] = some (answers, session) ∧
      (Value.lambda [.symbol "x"] body Session.root).Sound session.state.frames.size ∧
      (∀ v ∈ [Value.number (.ofNat 5)], v.Sound session.state.frames.size) ∧
      callWithin .standard 5 (.lambda [.symbol "x"] body Session.root) [.number (.ofNat 5)]
        session.state.frames = some first ∧
      ∀ times, ∃ between last second,
        callsWithin .standard 5 (.lambda [.symbol "x"] body Session.root) [.number (.ofNat 5)]
          times first.2 = some (between, last) ∧
        callWithin .standard 5 (.lambda [.symbol "x"] body Session.root) [.number (.ofNat 5)]
          last = some second ∧
        Repeats (later session.state.frames.size (last.size - session.state.frames.size))
          first second := by
  have read : Reader.parse "(lambda (y) (+ x y))" = .ok (.list [.symbol "lambda",
      .list [.symbol "y"], .list [.symbol "+", .symbol "x", .symbol "y"]]) := rfl
  have both : (((Session.standard .standard).answersWithin 5
      ["(define add (lambda (x) (lambda (y) (+ x y))))"]).bind fun course =>
        callWithin .standard 5 (.lambda [.symbol "x"] (.list [.symbol "lambda",
          .list [.symbol "y"], .list [.symbol "+", .symbol "x", .symbol "y"]]) Session.root)
            [.number (.ofNat 5)] course.2.state.frames).isSome = true := by decide +kernel
  obtain ⟨first, both⟩ := Option.isSome_iff_exists.mp both
  obtain ⟨⟨answers, session⟩, come, ends⟩ := Option.bind_eq_some_iff.mp both
  have known := Value.Sound.lambda ["x"] (plain_of_parse read) (Visits.course_alike come).grown
  have given : ∀ v ∈ [Value.number (.ofNat 5)], v.Sound session.state.frames.size := by
    intro v mem
    rw [List.mem_singleton.mp mem]
    exact .number _
  have law := (call_repeatable (.between come)).2.2 _ _ _ known _ given 5 first ends
  exact ⟨_, answers, session, first, read, come, known, given, ends, law⟩

end DecimalLisp
