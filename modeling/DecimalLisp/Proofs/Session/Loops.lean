import DecimalLisp.Proofs.Calculation.Exact
import DecimalLisp.Proofs.Comparison
import DecimalLisp.Proofs.Evaluation.DirectStyle
import DecimalLisp.Proofs.ExactText
import DecimalLisp.Proofs.Frames
import DecimalLisp.Proofs.Reader
import DecimalLisp.Proofs.Session.Answers

/-!
# Loops that count down

A procedure counts a number down to zero by calling itself in place of itself. Each turn has a frame
of its own inside the root frame, which keeps the procedure and what it calls in sight. As long as
the first number has no more digits than the precision, nothing is rounded on the way down, so that
zero is reached, however far it is; and sums that have room are exact too.
-/

namespace DecimalLisp

open Filter

/-! ## Calls of builtins with natural numbers -/

namespace Builtin

variable {p : Precision}

theorem apply_add_ofNat {m n : ℕ} (room : m + n < 10 ^ min p.digits 999999) :
    (arithmetic .add).apply p [.number (.ofNat m), .number (.ofNat n)] =
      .ok (.number (.ofNat (m + n))) := by
  have start := Decimal.add_ofNat (p := p) (m := 0) (n := m) (by omega)
  rw [Nat.zero_add] at start
  simp [apply, numbers, Value.number?, Operation.calculate, Operation.operands?, Operation.fold,
    Operation.run, start, Decimal.add_ofNat room]

theorem apply_subtract_one {n : ℕ} (room : n + 1 < 10 ^ min p.digits 999999) :
    (arithmetic .subtract).apply p [.number (.ofNat (n + 1)), .number (.ofNat 1)] =
      .ok (.number (.ofNat n)) := by
  simp [apply, numbers, Value.number?, Operation.calculate, Operation.operands?, Operation.fold,
    Operation.run, Decimal.subtract_ofNat_one room]

/-- A natural number is compared with zero by its value. -/
theorem apply_equal_zero (p : Precision) (n : ℕ) :
    (comparison .equal).apply p [.number (.ofNat n), .number (.ofNat 0)] =
      .ok (if n = 0 then .number (.ofNat 0) else .nil) := by
  have values : [Value.number (.ofNat n), .number (.ofNat 0)].map Value.toRat? =
      [(n : ℚ), (0 : ℕ)].map some := by
    simp [Value.toRat?, Value.number?, Decimal.toRat_ofNat]
  have asked : [(n : ℚ), (0 : ℕ)].Pairwise Relation.equal.exact ↔ n = 0 :=
    List.pairwise_pair.trans Nat.cast_inj
  obtain ⟨v, last, -, answer⟩ := apply_comparison p .equal values le_rfl
  cases last
  rw [answer, if_congr asked rfl rfl]
  rfl

end Builtin

/-! ## One turn of a loop -/

/-- The name of no arithmetic builtin begins a special form. -/
theorem SpecialForm.name_ne_sign {sign : String} (mem : sign ∈ ["=", "-", "+"])
    (form : SpecialForm) : Value.symbol sign ≠ .symbol form.name := by
  intro same
  rw [Value.symbol.inj same] at mem
  cases form <;> revert mem <;> decide

/-- A procedure that counts its first parameter down to zero, where it gives a result. Until then it
calls itself, with what becomes of its other parameters. -/
structure Loop where
  /-- The name by which it calls itself. -/
  name : String
  /-- The parameters after the one that is counted down. -/
  others : List String
  /-- What is evaluated at zero. -/
  result : Value
  /-- What becomes of the other parameters. -/
  updates : List Value
  /-- No parameter is repeated. -/
  distinct : ("n" :: others).Nodup
  /-- No parameter hides the procedure or one that it calls. -/
  visible : ∀ word ∈ [name, "=", "-", "+"], word ∉ "n" :: others
  /-- The name begins no special form. -/
  plain : ∀ form : SpecialForm, name ≠ form.name

namespace Loop

/-- The parameters. -/
def parameters (loop : Loop) : List String :=
  "n" :: loop.others

/-- The body: a test, the result, and the call. -/
def body (loop : Loop) : Value :=
  .list [.symbol "if", .list [.symbol "=", .symbol "n", .number (.ofNat 0)], loop.result,
    .list (.symbol loop.name ::
      .list [.symbol "-", .symbol "n", .number (.ofNat 1)] :: loop.updates)]

/-- The procedure. -/
def procedure (loop : Loop) : Value :=
  .lambda (loop.parameters.map .symbol) loop.body Session.root

/-- The frame of a turn, in which the parameters have their values. -/
def frame (loop : Loop) (n : ℕ) (vs : List Value) : Frame :=
  ⟨loop.parameters.zip (.number (.ofNat n) :: vs), some Session.root⟩

/-- The state in which a turn begins. -/
def enter (loop : Loop) (n : ℕ) (vs : List Value) (s : State) : State :=
  { s with frames := s.frames.push (loop.frame n vs) }

/-- The root frame binds what a loop calls. -/
structure Ready (loop : Loop) (frames : Frames) : Prop where
  /-- There is a root frame. -/
  root : Session.root < frames.size
  /-- The loop calls itself. -/
  self : (frames.bindings Session.root).value? loop.name = some loop.procedure
  /-- It asks whether zero is reached. -/
  equal : (frames.bindings Session.root).value? "=" = some (.builtin (.comparison .equal))
  /-- It counts down. -/
  subtract : (frames.bindings Session.root).value? "-" = some (.builtin (.arithmetic .subtract))
  /-- It may add something up. -/
  add : (frames.bindings Session.root).value? "+" = some (.builtin (.arithmetic .add))

/-- A frame is that of a turn of a loop. -/
structure Turn (loop : Loop) (n : ℕ) (vs : List Value) (f : FrameId) (frames : Frames) : Prop
    extends loop.Ready frames where
  /-- It is not the root frame. -/
  inner : f ≠ Session.root
  /-- It lies inside the root frame. -/
  outer : frames.outer? f = some Session.root
  /-- The parameters have their values. -/
  bindings : frames.bindings f = loop.parameters.zip (.number (.ofNat n) :: vs)

variable {loop : Loop} {p : Precision} {frames : Frames} {f : FrameId} {n : ℕ} {vs : List Value}
  {s : State}

/-- Another frame does not matter to the root frame. -/
theorem Ready.push (ready : loop.Ready frames) (frame : Frame) :
    loop.Ready (frames.push frame) := by
  have same : (frames.push frame).bindings Session.root = frames.bindings Session.root := by
    rw [Frames.bindings_push, if_neg ready.root.ne]
  refine ⟨?_, same ▸ ready.self, same ▸ ready.equal, same ▸ ready.subtract, same ▸ ready.add⟩
  rw [Frames.size_push]
  exact Nat.lt_succ_of_lt ready.root

/-- A call begins a turn in a new frame. -/
theorem Ready.turn (ready : loop.Ready s.frames) (n : ℕ) (vs : List Value) :
    loop.Turn n vs s.frames.size (loop.enter n vs s).frames where
  toReady := ready.push _
  inner := ready.root.ne'
  outer := by rw [enter, Frames.outer?_push, if_pos rfl, frame]
  bindings := by rw [enter, Frames.bindings_push, if_pos rfl, frame]

/-- The root frame is not touched by that. -/
theorem Ready.frame?_root (ready : loop.Ready s.frames) (n : ℕ) (vs : List Value) :
    (loop.enter n vs s).frames.frame? Session.root = s.frames.frame? Session.root := by
  rw [enter, Frames.frame?_push, if_neg ready.root.ne]

/-- A call has a frame if it has as many arguments as there are parameters. -/
theorem ofCall_parameters (n : ℕ) (count : vs.length = loop.others.length) :
    Frame.ofCall (loop.parameters.map .symbol) Session.root (.number (.ofNat n) :: vs) =
      .ok (loop.frame n vs) := by
  have names : (Bindings.names (loop.parameters.zip (.number (.ofNat n) :: vs))).Nodup := by
    rw [Bindings.names, List.map_fst_zip (by simp [parameters, count])]
    exact loop.distinct
  rw [Frame.ofCall_symbols, if_pos (by simp [parameters, count]),
    Bindings.writeAll_of_nodup names, List.nil_append, frame]

/-- In a turn the parameters are seen. -/
theorem Turn.value?_parameter {name : String} {v : Value} (turn : loop.Turn n vs f frames)
    (given : Bindings.value? (loop.parameters.zip (.number (.ofNat n) :: vs)) name = some v) :
    frames.value? f (.symbol name) = some v :=
  Frames.value?_here (by rwa [turn.bindings])

theorem Turn.value?_count (turn : loop.Turn n vs f frames) :
    frames.value? f (.symbol "n") = some (.number (.ofNat n)) :=
  turn.value?_parameter rfl

/-- In a turn what the root frame binds is seen, unless a parameter hides it. -/
theorem Turn.value?_root {word : String} {v : Value} (turn : loop.Turn n vs f frames)
    (known : word ∈ [loop.name, "=", "-", "+"])
    (bound : (frames.bindings Session.root).value? word = some v) :
    frames.value? f (.symbol word) = some v := by
  refine Frames.value?_outside turn.inner turn.outer ?_ bound
  rw [← Option.not_isSome_iff_eq_none, turn.bindings]
  intro here
  obtain ⟨entry, mem, rfl⟩ := List.mem_map.mp ((Bindings.binds_iff _ _).mp here)
  exact loop.visible _ known (List.of_mem_zip mem).1

/-- What a turn asks is whether zero is reached. -/
theorem Turn.asked (turn : loop.Turn n vs f s.frames) :
    Direct p (.list [.symbol "=", .symbol "n", .number (.ofNat 0)]) f s
      (.done (if n = 0 then .number (.ofNat 0) else .nil) s) :=
  .builtin (SpecialForm.name_ne_sign (by decide)) (.bound (turn.value?_root (by simp) turn.equal))
    (.cons (.bound turn.value?_count) (.cons (.itself rfl rfl) .nil))
    (Builtin.apply_equal_zero p n)

/-- A turn at zero ends with the result. -/
theorem Turn.stop {o : Outcome Value} (turn : loop.Turn 0 vs f s.frames)
    (result : Direct p loop.result f s o) : Direct p loop.body f s o :=
  .ifTrue turn.asked rfl result

/-- A call of a loop ends as the turn that it begins. -/
theorem call {es : List Value} {o : Outcome Value}
    (seen : s.frames.value? f (.symbol loop.name) = some loop.procedure)
    (given : DirectAll p es f s (.done (.number (.ofNat n) :: vs) s))
    (count : vs.length = loop.others.length)
    (run : Direct p loop.body s.frames.size (loop.enter n vs s) o) :
    Direct p (.list (.symbol loop.name :: es)) f s o :=
  .call (fun form same => loop.plain form (Value.symbol.inj same)) (.bound seen) given
    (ofCall_parameters n count) run

/-- A turn above zero ends as the turn with one less, which has a frame of its own. -/
theorem Turn.next {o : Outcome Value} (turn : loop.Turn (n + 1) vs f s.frames)
    (room : n + 1 < 10 ^ min p.digits 999999) {vs' : List Value}
    (updated : DirectAll p loop.updates f s (.done vs' s))
    (count : vs'.length = loop.others.length)
    (run : Direct p loop.body s.frames.size (loop.enter n vs' s) o) :
    Direct p loop.body f s o := by
  have less : Direct p (.list [.symbol "-", .symbol "n", .number (.ofNat 1)]) f s
      (.done (.number (.ofNat n)) s) :=
    .builtin (SpecialForm.name_ne_sign (by decide))
      (.bound (turn.value?_root (by simp) turn.subtract))
      (.cons (.bound turn.value?_count) (.cons (.itself rfl rfl) .nil))
      (Builtin.apply_subtract_one room)
  have self := turn.value?_root (by simp) turn.self
  exact .ifFalse turn.asked rfl (call self (.cons less updated) count run)

/-! ## All turns of a loop -/

/-- A property of the other parameters at each count that is kept from turn to turn and at zero
brings a value about. -/
structure Keeps (loop : Loop) (p : Precision) (good : ℕ → List Value → Prop) (v : Value) :
    Prop where
  /-- Every parameter has a value. -/
  count {n : ℕ} {vs : List Value} : good n vs → vs.length = loop.others.length
  /-- The count has room. -/
  room {n : ℕ} {vs : List Value} : good (n + 1) vs → n + 1 < 10 ^ min p.digits 999999
  /-- The next turn has the property. -/
  next {n : ℕ} {vs : List Value} {f : FrameId} {s : State} : good (n + 1) vs →
    loop.Turn (n + 1) vs f s.frames → ∃ vs', good n vs' ∧ DirectAll p loop.updates f s (.done vs' s)
  /-- At zero the value is the result. -/
  stop {vs : List Value} {f : FrameId} {s : State} : good 0 vs → loop.Turn 0 vs f s.frames →
    Direct p loop.result f s (.done v s)

variable {good : ℕ → List Value → Prop} {v : Value}

/-- However many turns there are, the last one brings the value about, and none of them touches the
root frame. -/
theorem Keeps.ends (keeps : loop.Keeps p good v) (holds : good n vs)
    (turn : loop.Turn n vs f s.frames) :
    ∃ s', Direct p loop.body f s (.done v s') ∧
      s'.frames.frame? Session.root = s.frames.frame? Session.root := by
  -- Each turn has another frame and other frames around it, and its arguments have the property.
  induction n generalizing vs f s with
  | zero => exact ⟨s, turn.stop (keeps.stop holds turn), rfl⟩
  | succ n ih =>
    obtain ⟨vs', holds', updated⟩ := keeps.next holds turn
    obtain ⟨s', run, same⟩ := ih holds' (turn.toReady.turn n vs')
    exact ⟨s', turn.next (keeps.room holds) updated (keeps.count holds') run,
      same.trans (turn.toReady.frame?_root n vs')⟩

/-- A call in the root frame with such arguments has the value. -/
theorem Keeps.call {es : List Value} (keeps : loop.Keeps p good v) (holds : good n vs)
    (ready : loop.Ready s.frames)
    (given : DirectAll p es Session.root s (.done (.number (.ofNat n) :: vs) s)) :
    ∃ s', Direct p (.list (.symbol loop.name :: es)) Session.root s (.done v s') ∧
      s'.frames.frame? Session.root = s.frames.frame? Session.root := by
  obtain ⟨s', run, same⟩ := keeps.ends holds (ready.turn n vs)
  exact ⟨s', Loop.call (Frames.value?_here ready.self) given (keeps.count holds) run,
    same.trans (ready.frame?_root n vs)⟩

end Loop

/-! ## Counting and adding up -/

/-- Counts down and is done. -/
def countLoop : Loop where
  name := "count"
  others := []
  result := .list [.symbol "quote", .symbol "done"]
  updates := []
  distinct := by decide
  visible := by decide
  plain form := by cases form <;> decide

/-- Counts down and adds up the counts on top of the second parameter. -/
def sumLoop : Loop where
  name := "sum"
  others := ["acc"]
  result := .symbol "acc"
  updates := [.list [.symbol "+", .symbol "acc", .symbol "n"]]
  distinct := by decide
  visible := by decide
  plain form := by cases form <;> decide

/-- All that counting needs is that the count has room. -/
theorem countLoop_keeps (p : Precision) :
    countLoop.Keeps p (fun n vs => vs = [] ∧ n < 10 ^ min p.digits 999999)
      (.list [.symbol "done"]) where
  count h := by rw [h.1]; rfl
  room h := h.2
  next h _ := ⟨[], ⟨rfl, (Nat.lt_succ_self _).trans h.2⟩, .nil⟩
  stop _ _ := .quote nofun

/-- What is still to come is the count and what comes after it. -/
theorem triangle_succ (n : ℕ) : (n + 1) * (n + 1 + 1) / 2 = n * (n + 1) / 2 + (n + 1) := by
  have product : (n + 1) * (n + 1 + 1) = n * (n + 1) + (n + 1) * 2 := by ring
  rw [product, Nat.add_mul_div_right _ _ Nat.two_pos]

/-- No number that is added is above the total. -/
theorem le_triangle (n : ℕ) : n ≤ n * (n + 1) / 2 := by
  cases n with
  | zero => exact le_rfl
  | succ n =>
    rw [triangle_succ]
    exact Nat.le_add_left _ _

/-- What has been added up and what is still to come are the total in every turn. -/
theorem sumLoop_keeps {p : Precision} {total : ℕ} (room : total < 10 ^ min p.digits 999999) :
    sumLoop.Keeps p (fun n vs => ∃ a, vs = [.number (.ofNat a)] ∧ a + n * (n + 1) / 2 = total)
      (.number (.ofNat total)) where
  count h := by
    obtain ⟨a, rfl, -⟩ := h
    rfl
  room {n _} h := by
    obtain ⟨a, -, whole⟩ := h
    have step := triangle_succ n
    omega
  next {n _ _ _} h turn := by
    obtain ⟨a, rfl, whole⟩ := h
    have step := triangle_succ n
    have added := Builtin.apply_add_ofNat (p := p) (m := a) (n := n + 1) (by omega)
    refine ⟨_, ⟨a + (n + 1), rfl, by omega⟩, .cons ?_ .nil⟩
    exact .builtin (SpecialForm.name_ne_sign (by decide))
      (.bound (turn.value?_root (by simp) turn.add))
      (.cons (.bound (turn.value?_parameter rfl)) (.cons (.bound turn.value?_count) .nil)) added
  stop h turn := by
    obtain ⟨a, rfl, rfl⟩ := h
    exact .bound (turn.value?_parameter rfl)

/-! ## Loops in a session -/

/-- The texts that define the two loops. -/
def loopTexts : List String :=
  ["(define count (lambda (n) (if (= n 0) (quote done) (count (- n 1)))))",
    "(define sum (lambda (n acc) (if (= n 0) acc (sum (- n 1) (+ acc n)))))"]

namespace Session

/-- A session after the definitions of the two loops. -/
def withLoops (p : Precision) : Session :=
  ⟨p, ((standard p).frames.write root countLoop.name countLoop.procedure).write root sumLoop.name
    sumLoop.procedure⟩

/-- The definitions are evaluated. -/
theorem exists_answers_withLoops (p : Precision) {bound : ℕ} (enough : 2 ≤ bound) :
    ∃ answers, (standard p).answersWithin bound loopTexts = some (answers, withLoops p) := by
  obtain ⟨k, rfl⟩ := Nat.exists_eq_add_of_le' enough
  exact ⟨_, rfl⟩

/-- What is bound in the root frame then. -/
theorem value?_withLoops (p : Precision) (word : String) :
    ((withLoops p).frames.bindings root).value? word =
      if word = sumLoop.name then some sumLoop.procedure
      else if word = countLoop.name then some countLoop.procedure
      else (standardBindings p).value? word := by
  have bound : (withLoops p).frames.bindings root =
      ((standardBindings p).write countLoop.name countLoop.procedure).write sumLoop.name
        sumLoop.procedure := rfl
  rw [bound, Bindings.value?_write, Bindings.value?_write]

theorem countLoop_ready (p : Precision) : countLoop.Ready (withLoops p).frames := by
  have size : (withLoops p).frames.size = 1 := by
    rw [withLoops, Frames.write, Frames.size_rebind, Frames.write, Frames.size_rebind]
    rfl
  refine ⟨size ▸ Nat.one_pos, ?_, ?_, ?_, ?_⟩ <;> rw [value?_withLoops] <;> rfl

theorem sumLoop_ready (p : Precision) : sumLoop.Ready (withLoops p).frames := by
  have count := countLoop_ready p
  refine ⟨count.root, ?_, count.equal, count.subtract, count.add⟩
  rw [value?_withLoops]
  rfl

/-- A call with natural numbers of which none has too many digits is read from a text. -/
theorem parse_call (name : String) (token : name ∈ Token.ofText name)
    (symbol : Reader.atom name = .ok (.symbol name)) (apart : name ≠ "(" ∧ name ≠ ")")
    {ns : List ℕ} (few : ∀ n ∈ ns, n < 10 ^ 999999) :
    Reader.parse ("(" ++ " ".intercalate (name :: ns.map toString) ++ ")") =
      .ok (.list (.symbol name :: ns.map fun n => .number (.ofNat n))) := by
  have word : Token.IsWord name :=
    ((Token.valid_of_mem_ofText token).resolve_left apart.1).resolve_left apart.2
  refine Reader.parse_words (.cons ⟨word, symbol⟩ ?_)
  rw [List.forall₂_map_left_iff, List.forall₂_map_right_iff, List.forall₂_same]
  exact fun n mem => ⟨isWord_toString n, Reader.atom_toString (few n mem)⟩

/-- A call that ends by the rules ends within every large enough bound when it is read from a
text. -/
theorem exists_run_of_direct {session : Session} {code : String} {e v : Value}
    (read : Reader.parse code = .ok e)
    (ends : ∃ s, Direct session.precision e root (session.task code e).state (.done v s) ∧
      s.frames.frame? root = session.frames.frame? root) :
    ∃ s, (∃ least, ∀ bound, least ≤ bound → session.run bound code = .done v s) ∧
      s.frames.frame? root = session.frames.frame? root := by
  obtain ⟨s, derived, same⟩ := ends
  obtain ⟨least, enough⟩ := eventually_atTop.mp derived.eventually
  refine ⟨s, ⟨least, fun bound large => ?_⟩, same⟩
  rw [run_of_parse read]
  exact enough bound large

end Session

open Session

/-- In a fresh session of any precision, once the two loops are defined, counting down from any
natural number that has no more digits than the precision comes to its end, and so does adding up
all numbers from one to such a number on top of another if the total has no more digits either. The
total is exact, with exponent zero. The root frame is the same afterwards. -/
theorem loops_compute (p : Precision) :
    ∃ session : Session,
      (∀ bound, 2 ≤ bound →
        ∃ answers, (Session.standard p).answersWithin bound loopTexts = some (answers, session)) ∧
      (∀ n : ℕ, n < 10 ^ min p.digits 999999 →
        ∃ s, (∃ least, ∀ bound, least ≤ bound →
            session.run bound ("(count " ++ toString n ++ ")") =
              .done (.list [.symbol "done"]) s) ∧
          s.frames.frame? Session.root = session.frames.frame? Session.root) ∧
      ∀ n a : ℕ, a + n * (n + 1) / 2 < 10 ^ min p.digits 999999 →
        ∃ s, (∃ least, ∀ bound, least ≤ bound →
            session.run bound ("(sum " ++ toString n ++ " " ++ toString a ++ ")") =
              .done (.number ⟨false, a + n * (n + 1) / 2, 0⟩) s) ∧
          s.frames.frame? Session.root = session.frames.frame? Session.root := by
  have few : ∀ {n d k : ℕ}, n < 10 ^ min d k → n < 10 ^ k := fun room =>
    room.trans_le (Nat.pow_le_pow_right (by decide) (min_le_right _ _))
  refine ⟨withLoops p, fun _ => exists_answers_withLoops p, fun n room => ?_, fun n a room => ?_⟩
  · have text : "(count " ++ toString n ++ ")" =
        "(" ++ " ".intercalate ["count", toString n] ++ ")" := by simp [← String.toList_inj]
    have read := parse_call "count" (by decide) rfl (by decide)
      (List.forall_mem_singleton.mpr (few room))
    rw [text]
    exact exists_run_of_direct read ((countLoop_keeps p).call ⟨rfl, room⟩ (countLoop_ready p)
      (.cons (.itself rfl rfl) .nil))
  · have text : "(sum " ++ toString n ++ " " ++ toString a ++ ")" =
        "(" ++ " ".intercalate ["sum", toString n, toString a] ++ ")" := by
      simp [← String.toList_inj]
    have read := parse_call "sum" (by decide) rfl (by decide)
      (List.forall_mem_cons.mpr ⟨few (((le_triangle n).trans (Nat.le_add_left _ a)).trans_lt room),
        List.forall_mem_singleton.mpr (few ((Nat.le_add_right a _).trans_lt room))⟩)
    rw [text]
    exact exists_run_of_direct read ((sumLoop_keeps room).call ⟨a, rfl, rfl⟩ (sumLoop_ready p)
      (.cons (.itself rfl rfl) (.cons (.itself rfl rfl) .nil)))

/-- With one digit the last number to count down from is nine, and the last total is nine too. -/
theorem loops_compute_nine :
    let p : Precision := ⟨1, le_rfl⟩
    ∃ session : Session,
      (∃ answers, (Session.standard p).answersWithin 2 loopTexts = some (answers, session)) ∧
      9 < 10 ^ min p.digits 999999 ∧ 3 + 3 * (3 + 1) / 2 < 10 ^ min p.digits 999999 ∧
      (∃ bound s, session.run bound "(count 9)" = .done (.list [.symbol "done"]) s ∧
        s.frames.frame? Session.root = session.frames.frame? Session.root) ∧
      ∃ bound s, session.run bound "(sum 3 3)" = .done (.number ⟨false, 9, 0⟩) s ∧
        s.frames.frame? Session.root = session.frames.frame? Session.root := by
  intro p
  have room : 9 < 10 ^ min p.digits 999999 := by decide
  obtain ⟨session, defined, counts, sums⟩ := loops_compute p
  obtain ⟨s, ⟨least, ends⟩, same⟩ := counts 9 room
  obtain ⟨s', ⟨least', ends'⟩, same'⟩ := sums 3 3 room
  exact ⟨session, defined 2 le_rfl, room, room, ⟨least, s, ends least le_rfl, same⟩,
    least', s', ends' least' le_rfl, same'⟩

end DecimalLisp
