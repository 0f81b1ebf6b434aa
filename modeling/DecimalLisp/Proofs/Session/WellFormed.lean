import DecimalLisp.Proofs.Session.Upkeep

/-!
# Frames of sessions

Frames refer to frames outside them, and procedures that they bind to frames again, which may bind
those procedures. Still every way outward comes to the root frame: a frame is made inside one that
is there, and it is never moved. This holds for all frames that a session ever has, after any texts
and in the middle of any evaluation, and for all frames that procedures in hand were made in.
-/

namespace DecimalLisp

open Reader Moment

namespace Frames

/-- A walk outward from a frame to a frame that lies inside none, by the frames on the way. Nothing
bounds how long it is. -/
inductive Walk (frames : Frames) : FrameId → List FrameId → FrameId → Prop where
  | last {i} : frames.outer? i = none → Walk frames i [i] i
  | outward {i o way last} : frames.outer? i = some o → Walk frames o way last →
      Walk frames i (i :: way) last

/-- Frames as sessions have them. -/
structure WellFormed (frames : Frames) : Prop where
  /-- A frame lies inside no frame, or inside one that was made before it. -/
  earlier : ∀ i o, frames.outer? i = some o → o < i
  /-- The way on which names are looked up is the whole walk outward, and it ends at the root. -/
  toRoot : ∀ i < frames.size, frames.Walk i (frames.outward i) Session.root
  /-- No name is bound twice in a frame. -/
  distinct : ∀ i, (frames.bindings i).names.Nodup
  /-- Names are bound to numbers, symbols, procedures and lists, and the procedures were made in
  frames that are there. -/
  sound : ∀ i, ∀ entry ∈ frames.bindings i, entry.2.Sound frames.size

/-- Where frames lie inside frames that were made before, walks end. -/
theorem Kept.walk {codes : List String} {frames : Frames} (kept : frames.Kept codes) {steps : ℕ}
    {i : FrameId} (there : i < frames.size) (enough : i < steps) :
    frames.Walk i (frames.outwardFrom steps i) Session.root := by
  induction steps generalizing i with
  | zero => cases enough
  | succ steps ih =>
    rw [outwardFrom]
    cases outside : frames.outer? i with
    | none => exact kept.inner i there outside ▸ .last (kept.inner i there outside ▸ outside)
    | some o =>
      have below := kept.earlier i o outside
      exact .outward outside
        (ih (below.trans there) (below.trans_le (Nat.le_of_lt_succ enough)))

theorem Kept.wellFormed {codes : List String} {frames : Frames} (kept : frames.Kept codes) :
    frames.WellFormed where
  earlier := kept.earlier
  toRoot i there := kept.walk there (Nat.lt_succ_self i)
  distinct := kept.distinct
  sound i entry mem := (kept.made i entry mem).sound

end Frames

/-- Whatever texts a session has run, and wherever the evaluation of the next one has come to, its
frames are well formed, and so are the values that it has answered or has in hand. There is no
procedure in code. What is under way is so in frames that are there. -/
theorem frames_wellFormed {start session : Session} (opened : start.Opened) {bound : ℕ}
    {codes : List String} {answers : List Answer}
    (come : start.answersWithin bound codes = some (answers, session)) :
    (session.frames.WellFormed ∧ ∀ answer ∈ answers, ∀ v, answer.result = .ok v →
      v.Sound session.frames.size) ∧
    ∀ code e m, parse code = .ok e →
      Reaches session.precision (session.opening code e) m →
        m.state.frames.WellFormed ∧ (∀ v ∈ m.inHand, v.Sound m.state.frames.size) ∧
          (∀ e ∈ m.code, e.Plain) ∧ ∀ f ∈ m.inUse, f < m.state.frames.size := by
  obtain ⟨-, -, kept, values⟩ := Session.answers_kept opened.kept come
  refine ⟨⟨kept.wellFormed, fun answer mem v given => (values answer mem v given).sound⟩, ?_⟩
  intro code e m read path
  have now := (Session.opening_kept kept read).reaches path
  exact ⟨now.frames.wellFormed, fun v mem => (now.made mem).sound,
    fun e mem => (now.written mem).plain, fun f mem => now.there mem⟩

/-- After a text that failed half-way, a procedure is made inside the frame of a call. -/
theorem frames_wellFormed_closure :
    let made : Value := .list [.symbol "lambda", .list [.symbol "x"],
      .list [.symbol "lambda", .list [.symbol "z"], .symbol "x"]]
    let e : Value := .list [made, .symbol "y"]
    let code := "((lambda (x) (lambda (z) x)) y)"
    let start := Session.standard .standard
    let frames := start.frames.write 0 "y" (.number (.ofNat 3))
    let session : Session := ⟨.standard, frames⟩
    let m : Moment := ⟨.give (.lambda [.symbol "z"] (.symbol "x") 1), [],
      ⟨frames.push ⟨[("x", .number (.ofNat 3))], some 0⟩, #[.evaluating code]⟩⟩
    start.Opened ∧
      start.answersWithin 5 ["(set! y 3)"] =
        some ([⟨.error (.malformed .assignment), []⟩], session) ∧
      parse code = .ok e ∧ Reaches session.precision (session.opening code e) m ∧
      session.frames.WellFormed ∧ m.state.frames.WellFormed ∧
      (Value.lambda [.symbol "z"] (.symbol "x") 1).Sound 2 := by
  intro made e code start frames session m
  have opened : start.Opened := .standard .standard
  have come : start.answersWithin 5 ["(set! y 3)"] =
      some ([⟨.error (.malformed .assignment), []⟩], session) := rfl
  have read : parse "((lambda (x) (lambda (z) x)) y)" = .ok e := rfl
  have path : Reaches session.precision (session.opening code e) m :=
    .head rfl (.head rfl (.head rfl (.head rfl (.head rfl (.head rfl .refl)))))
  have law := frames_wellFormed opened come
  have now := law.2 code e m read path
  exact ⟨opened, come, read, path, law.1.1, now.1, now.2.1 _ List.mem_cons_self⟩

end DecimalLisp
