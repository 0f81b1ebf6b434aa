import DecimalLisp.Proofs.Evaluation.Calls
import DecimalLisp.Proofs.Session.Upkeep

/-!
# Depth of evaluation

While an expression is evaluated, evaluations of its parts are under way inside it, and evaluations
of their parts inside these. What is entered in place of something else does not go deeper. So if
only the outermost evaluation calls procedures that forms have made, the others go down in what is
written, and are no deeper than lists are nested there. It does not matter how often procedures are
called, or whether there is an end to it.
-/

namespace DecimalLisp

open Reader Moment

namespace Value

mutual

/-- How many lists lie inside one another. -/
def nesting : Value → ℕ
  | .list items => nestingAll items + 1
  | _ => 0

/-- How many lists lie inside one another in any of several values. -/
def nestingAll : List Value → ℕ
  | [] => 0
  | v :: rest => max (nesting v) (nestingAll rest)

end

variable {v w : Value} {items : List Value} {codes : List String}

theorem nesting_le_nestingAll (mem : v ∈ items) : v.nesting ≤ nestingAll items := by
  induction mem with
  | head rest => exact le_max_left _ _
  | tail w _ ih => exact ih.trans (le_max_right _ _)

/-- An item is nested less than its list. -/
theorem nesting_lt_of_mem (mem : v ∈ items) : v.nesting < (Value.list items).nesting :=
  Nat.lt_succ_of_le (nesting_le_nestingAll mem)

theorem Within.nesting_le (h : Within v w) : v.nesting ≤ w.nesting := by
  induction h with
  | refl => exact le_rfl
  | item mem _ ih => exact ih.trans (nesting_lt_of_mem mem).le

end Value

/-- How many lists lie inside one another in what is read from any of several texts. -/
def deepest (codes : List String) : ℕ :=
  Value.nestingAll (codes.filterMap fun code => (parse code).toOption)

/-- What stands in texts is not nested more than what is read from them. -/
theorem Value.WrittenIn.nesting_le {codes : List String} {v : Value} (h : v.WrittenIn codes) :
    v.nesting ≤ deepest codes := by
  obtain ⟨code, mem, tree, read, inside⟩ := h
  refine inside.nesting_le.trans (nesting_le_nestingAll ?_)
  exact List.mem_filterMap.mpr ⟨code, mem, by rw [read]; rfl⟩

/-- How many evaluations are under way at a moment: those that wait and the one for which something
happens. -/
def Moment.depth (m : Moment) : ℕ :=
  m.active.length + 1

/-! ## What is kept up -/

/-- Code that waits at some depth is nested so little that it cannot lead below a floor. -/
def Above (floor : ℕ) : List Activation → Prop
  | [] => True
  | a :: rest => rest.length < floor ∧ (∀ e ∈ a.pending.code, e.nesting + rest.length < floor) ∧
      Above floor rest

/-- Nor can what is entered. -/
structure Moment.Above (floor : ℕ) (m : Moment) : Prop where
  /-- The expression that is entered. -/
  event : ∀ e ∈ m.event.code, e.nesting + m.active.length ≤ floor
  /-- What waits. -/
  active : DecimalLisp.Above floor m.active

namespace Moment.Above

variable {p : Precision} {codes : List String} {floor : ℕ} {m m' : Moment}

/-- There are no more evaluations than there may be. -/
theorem depth_le (h : m.Above floor) : m.depth ≤ floor + 1 := by
  obtain ⟨event, active, s⟩ := m
  cases active with
  | nil => exact Nat.le_add_left 1 floor
  | cons a rest => exact Nat.succ_le_succ h.active.1

/-- A step leads to nothing below the floor if what it leaves over does not. -/
theorem of_outcome {active : List Activation} {o : Outcome Next}
    (waiting : DecimalLisp.Above floor active)
    (tails : ∀ e f s, o = .done (.tail e f) s → e.nesting + active.length ≤ floor)
    (h : o.moment? active = some m) : m.Above floor := by
  cases o with
  | done next s =>
    cases next with
    | value v =>
      cases h
      exact ⟨nofun, waiting⟩
    | tail e f =>
      cases h
      refine ⟨fun e' mem => ?_, waiting⟩
      rw [List.mem_singleton.mp mem]
      exact tails e f s rfl
  | failed fault s =>
    cases h
    exact ⟨nofun, waiting⟩
  | unfinished => cases h

/-- The next moment is above the floor too, if that is so of the body of a procedure that is
called. -/
theorem next (h : m.Above floor) (calls : ∀ formals body c,
    m.applied? = some (.lambda formals body c) → body.nesting + m.active.length ≤ floor + 1)
    (step : m.next? p = some m') : m'.Above floor := by
  obtain ⟨event, active⟩ := h
  unfold next? at step
  split at step
  · next e f waiting s =>
    have entered := event e List.mem_cons_self
    split at step
    · next part pending found =>
      cases step
      obtain ⟨items, rfl, mem, code⟩ := mem_of_firstPart found
      have lower : ∀ w ∈ items, w.nesting + waiting.length < floor := fun w mem =>
        (Nat.add_lt_add_right (Value.nesting_lt_of_mem mem) _).trans_le entered
      refine ⟨fun e mem' => ?_, ?_, fun e mem => lower e (code mem), active⟩
      · rw [List.mem_singleton.mp mem']
        exact lower part mem
      · exact (Nat.le_add_left _ _).trans_lt (lower part mem)
    · exact of_outcome active (fun _ _ _ tail => absurd tail step_ne_tail) step
  · next v f pending waiting s =>
    obtain ⟨here, code, others⟩ := active
    split at step
    · next part pending found =>
      cases step
      rw [code_of_nextPart found] at code
      obtain ⟨first, later⟩ := List.forall_mem_cons.mp code
      refine ⟨fun e mem => ?_, here, later, others⟩
      rw [List.mem_singleton.mp mem]
      exact first
    · refine of_outcome others (fun e _ _ tail => ?_) step
      rcases tail_of_resume tail with waited | ⟨formals, c, applied⟩
      · exact (code e waited).le
      · exact Nat.le_of_succ_le_succ (calls formals e c applied)
  · cases step
    exact ⟨nofun, active.2.2⟩
  · cases step

/-- As long as only the outermost evaluation calls procedures that forms have made, moments stay
above the depth to which lists are nested in the texts. -/
theorem reaches (h : m.Above (deepest codes)) (kept : m.Kept codes)
    (outermost : ∀ m', Reaches p m m' → ∀ formals body c,
      m'.applied? = some (.lambda formals body c) → m'.active.length = 1)
    (path : Reaches p m m') : m'.Above (deepest codes) := by
  induction path with
  | refl => exact h
  | @tail m' _ before last ih =>
    refine ih.next (fun formals body c applied => ?_) last
    have made := (kept.reaches before).made (applied_mem_inHand applied)
    obtain ⟨others, written⟩ := made.proceduresFrom formals body c .refl
    have shallow : body.nesting ≤ deepest codes := (written.item (by simp)).nesting_le
    rw [outermost m' before formals body c applied]
    exact Nat.succ_le_succ shallow

end Moment.Above

/-! ## Depth of evaluation in a session -/

/-- Whatever texts a session on a fresh root frame has run, if procedures that forms have made are
called by the outermost evaluation of the next text only, then at every moment of that evaluation
there are at most as many evaluations under way as lists lie inside one another in what was read
from these texts, and one more. -/
theorem depth_le_of_outermost {p : Precision} {bound : ℕ} {codes : List String}
    {answers : List Answer} {session : Session}
    (come : (Session.standard p).answersWithin bound codes = some (answers, session))
    {code : String} {e : Value} (read : parse code = .ok e)
    (outermost : ∀ m, Reaches p (session.opening code e) m → ∀ formals body c,
      m.applied? = some (.lambda formals body c) → m.active.length = 1)
    {m : Moment} (path : Reaches p (session.opening code e) m) :
    m.depth ≤ deepest (codes ++ [code]) + 1 := by
  obtain ⟨-, -, kept, -⟩ := Session.answers_kept (Session.Opened.standard p).kept come
  have opening : (session.opening code e).Kept (codes ++ [code]) :=
    Session.opening_kept kept read
  have above : (session.opening code e).Above (deepest (codes ++ [code])) := by
    refine ⟨fun e' mem => ?_, trivial⟩
    exact (opening.written (List.mem_append_left _ mem)).nesting_le
  exact (above.reaches opening outermost path).depth_le

/-! ### A call without end -/

/-- A procedure without parameters that calls itself by its name. -/
def endless : Value := .lambda [] (.list [.symbol "loop"]) Session.root

/-- From the root frame, and from a frame of a call inside it, the name is seen. -/
structure SeesEndless (f : FrameId) (frames : Frames) : Prop where
  /-- There is a root frame. -/
  root : Session.root < frames.size
  /-- It binds the name to the procedure. -/
  value : (frames.bindings Session.root).value? "loop" = some endless
  /-- The frame of a call binds nothing. -/
  here : f = Session.root ∨ frames.bindings f = [] ∧ frames.outer? f = some Session.root

/-- The moments of a call of the procedure. -/
inductive EndlessCall : Moment → Prop where
  | enter {f s} : SeesEndless f s.frames → EndlessCall ⟨.enter (.list [.symbol "loop"]) f, [], s⟩
  | head {f s} : SeesEndless f s.frames →
      EndlessCall ⟨.enter (.symbol "loop") f, [⟨f, .head (.symbol "loop") []⟩], s⟩
  | apply {f s} : SeesEndless f s.frames →
      EndlessCall ⟨.give endless, [⟨f, .head (.symbol "loop") []⟩], s⟩

theorem SeesEndless.value? {f : FrameId} {frames : Frames} (h : SeesEndless f frames) :
    frames.value? f (.symbol "loop") = some endless := by
  rcases h.here with rfl | ⟨empty, outer⟩
  · exact Frames.value?_here h.value
  · have unbound : (frames.bindings f).value? "loop" = none := by rw [empty]; rfl
    have inner : f ≠ Session.root := by
      rintro rfl
      cases unbound.symm.trans h.value
    exact Frames.value?_outside inner outer unbound h.value

/-- The call leads to itself, in a new frame. -/
theorem EndlessCall.next {p : Precision} {m : Moment} (h : EndlessCall m) :
    ∃ m', m.next? p = some m' ∧ EndlessCall m' := by
  cases h with
  | enter sees => exact ⟨_, rfl, .head sees⟩
  | @head f s sees =>
    have found : step p idle (.symbol "loop") f s = .done (.value endless) s :=
      Action.bind_of_done (Action.lookup_of_some sees.value?)
    exact ⟨_, congrArg (Outcome.moment? _) found, .apply sees⟩
  | @apply f s sees =>
    have new : Session.root ≠ s.frames.size := sees.root.ne
    refine ⟨_, rfl, .enter ⟨?_, ?_, .inr ⟨?_, ?_⟩⟩⟩
    · exact (Frames.size_push _ _).symm ▸ Nat.succ_pos _
    · rw [Frames.bindings_push, if_neg new]
      exact sees.value
    · rw [Frames.bindings_push, if_pos rfl]
    · rw [Frames.outer?_push, if_pos rfl]

/-- The call does not end. It is the outermost evaluation that makes it again each time, so the bound
holds at all of its moments. -/
theorem depth_le_of_outermost_endless :
    let define := "(define loop (lambda () (loop)))"
    let form := Value.lambdaForm [] (.list [.symbol "loop"]) []
    let start := Session.standard .standard
    let session : Session := ⟨.standard, start.frames.write 0 "loop" endless⟩
    let m := session.opening "(loop)" (.list [.symbol "loop"])
    start.answersWithin 5 [define] = some ([⟨.ok form, []⟩], session) ∧
      parse "(loop)" = .ok (.list [.symbol "loop"]) ∧
      deepest [define, "(loop)"] = 3 ∧
      ∀ m', Reaches .standard m m' → (m'.next? .standard).isSome ∧ m'.depth ≤ 3 + 1 := by
  intro define form start session m
  have come : start.answersWithin 5 ["(define loop (lambda () (loop)))"] =
      some ([⟨.ok form, []⟩], session) := rfl
  have read : parse "(loop)" = .ok (.list [.symbol "loop"]) := rfl
  have defined : parse "(define loop (lambda () (loop)))" =
      .ok (.list [.symbol "define", .symbol "loop", form]) := rfl
  have nested : deepest ["(define loop (lambda () (loop)))", "(loop)"] = 3 := by
    simp only [deepest, List.filterMap_cons, defined, read]
    rfl
  have sees : SeesEndless Session.root session.frames := by
    refine ⟨?_, ?_, .inl rfl⟩
    · exact (Frames.size_rebind _ _ _).symm ▸ Nat.one_pos
    · have root : session.frames.bindings 0 =
          Bindings.write (Session.standardBindings .standard) "loop" endless := rfl
      rw [Session.root, root, Bindings.value?_write, if_pos rfl]
  have calls : ∀ m', Reaches .standard m m' → EndlessCall m' := by
    intro m' path
    induction path with
    | refl => exact .enter sees
    | tail _ last ih =>
      obtain ⟨after, next, call⟩ := ih.next
      exact Option.some.inj (next.symm.trans last) ▸ call
  refine ⟨come, read, nested, fun m' path => ⟨?_, ?_⟩⟩
  · obtain ⟨after, next, -⟩ := (calls m' path).next
    rw [next]
    rfl
  · have outermost : ∀ m', Reaches .standard m m' → ∀ formals body c,
        m'.applied? = some (.lambda formals body c) → m'.active.length = 1 := by
      intro m' path formals body c applied
      cases calls m' path with
      | apply _ => rfl
      | _ => cases applied
    have law := depth_le_of_outermost come read outermost path
    rw [List.singleton_append, nested] at law
    exact law

end DecimalLisp
