import DecimalLisp.Proofs.Evaluation.Upkeep

/-!
# What sessions keep up

A session is opened on a fresh root frame or on an empty one. From then on everything that
evaluation keeps up is kept up from one text to the next, and at every moment in between: after
texts that gave a value, after texts that could not be read, and after texts that failed half-way.
-/

namespace DecimalLisp

open Reader Moment

namespace Session

/-- A session that has just been opened. -/
inductive Opened : Session → Prop where
  /-- On a fresh root frame. -/
  | standard (p : Precision) : Opened (standard p)
  /-- On an empty root frame. -/
  | bare (p : Precision) : Opened (bare p)

/-- The moment at which the expression that was read from a text is entered. -/
def opening (session : Session) (code : String) (e : Value) : Moment :=
  ⟨.enter e root, [], (session.task code e).state⟩

end Session

/-- A root frame keeps everything up if its names are distinct and there are no procedures among
its values but builtin ones. -/
theorem Frames.kept_root {codes : List String} {bindings : Bindings}
    (distinct : bindings.names.Nodup) (made : ∀ entry ∈ bindings, entry.2.Made codes 1) :
    (Frames.empty.push ⟨bindings, none⟩).Kept codes := by
  have size : (Frames.empty.push ⟨bindings, none⟩).size = 1 := size_push _ _
  have outer : ∀ i, (Frames.empty.push ⟨bindings, none⟩).outer? i = none := by
    intro i
    rw [outer?_push]
    split <;> rfl
  have bound : ∀ i, (Frames.empty.push ⟨bindings, none⟩).bindings i = bindings ∨
      (Frames.empty.push ⟨bindings, none⟩).bindings i = [] := by
    intro i
    rw [bindings_push]
    split
    · exact .inl rfl
    · exact .inr rfl
  refine ⟨size ▸ Nat.one_pos, fun i o inside => ?_, fun i hi _ => ?_, fun i => ?_,
    fun i entry mem => ?_⟩
  · rw [outer] at inside
    cases inside
  · rw [size] at hi
    exact Nat.lt_one_iff.mp hi
  · rcases bound i with same | none
    · rwa [same]
    · rw [none]
      exact List.nodup_nil
  · rw [size]
    rcases bound i with same | none
    · exact made entry (same ▸ mem)
    · rw [none] at mem
      cases mem

namespace Session

variable {start session later : Session} {known codes : List String} {code : String} {bound : ℕ}
  {answers : List Answer} {e : Value}

/-- A session that has just been opened keeps everything up. -/
theorem Opened.kept (h : start.Opened) : start.frames.Kept [] := by
  cases h with
  | standard p =>
    have distinct : (Builtin.all.map Builtin.name ++ ["pi"]).Nodup := by decide
    refine Frames.kept_root distinct fun entry mem => ?_
    rcases List.mem_append.mp mem with procedure | number
    · obtain ⟨b, -, rfl⟩ := List.mem_map.mp procedure
      exact .builtin b
    · rw [List.mem_singleton.mp number]
      exact .constant _
  | bare p => exact Frames.kept_root List.nodup_nil nofun

/-- When the evaluation of a text begins, everything is kept up. -/
theorem opening_kept (kept : session.frames.Kept known) (read : parse code = .ok e) :
    (session.opening code e).Kept (known ++ [code]) where
  frames := kept.mono (List.subset_append_left known [code])
  event := ⟨⟨code, by simp, e, read, .refl⟩, kept.root⟩
  active := nofun

/-- Running a text keeps everything up. What goes wrong is reported, unless the text cannot be
read. -/
theorem run_kept (kept : session.frames.Kept known) (bound : ℕ) (code : String) :
    (session.run bound code).All
      (fun v s => session.frames.size ≤ s.frames.size ∧ s.frames.Kept (known ++ [code]) ∧
        v.Made (known ++ [code]) s.frames.size)
      (fun fault s => session.frames.size ≤ s.frames.size ∧ s.frames.Kept (known ++ [code]) ∧
        (fault.Kept (known ++ [code]) s.frames.size ∨ ∃ cause, parse code = .error cause ∧
          fault = .unreadable cause)) := by
  cases read : parse code with
  | error cause =>
    rw [run_of_fault read]
    exact ⟨le_rfl, kept.mono (List.subset_append_left known [code]), .inr ⟨cause, rfl, rfl⟩⟩
  | ok e =>
    rw [run_of_parse read]
    have grown := evaluate_keepsToFrame session.precision bound e root (session.task code e).state
    have reached := evaluate_covered session.precision bound e root (session.task code e).state []
    have ended : ∀ m, Reaches session.precision (session.opening code e) m →
        m.Kept (known ++ [code]) := fun m path => (opening_kept kept read).reaches path
    -- The ending is a moment as well, and what is kept up there is all that is asked for.
    generalize DecimalLisp.evaluate session.precision bound e root (session.task code e).state = o
      at grown reached ⊢
    cases o with
    | done v s =>
      have last := ended _ (reached _ rfl)
      exact ⟨grown.size_le, last.frames, last.event⟩
    | failed fault s =>
      have last := ended _ (reached _ rfl)
      exact ⟨grown.size_le, last.frames, .inl last.event⟩
    | unfinished => trivial

/-- What is kept up when a text has been answered. -/
theorem answer_kept (kept : session.frames.Kept known) {answer : Answer} {s : State}
    (answered : (session.run bound code).answer? = some (answer, s)) :
    session.frames.size ≤ s.frames.size ∧ s.frames.Kept (known ++ [code]) ∧
      ∀ v, answer.result = .ok v → v.Made (known ++ [code]) s.frames.size := by
  have upheld := run_kept kept bound code
  cases ran : session.run bound code with
  | done v s' =>
    rw [ran] at answered upheld
    cases answered
    refine ⟨upheld.1, upheld.2.1, ?_⟩
    rintro w ⟨⟩
    exact upheld.2.2
  | failed fault s' =>
    rw [ran] at answered upheld
    cases answered
    exact ⟨upheld.1, upheld.2.1, nofun⟩
  | unfinished =>
    rw [ran] at answered
    cases answered

/-- Running texts one after the other keeps everything up. -/
theorem answers_kept (kept : session.frames.Kept known)
    (come : session.answersWithin bound codes = some (answers, later)) :
    later.precision = session.precision ∧ session.frames.size ≤ later.frames.size ∧
      later.frames.Kept (known ++ codes) ∧ ∀ answer ∈ answers, ∀ v, answer.result = .ok v →
        v.Made (known ++ codes) later.frames.size := by
  induction codes generalizing session known answers with
  | nil =>
    cases come
    exact ⟨rfl, le_rfl, kept.mono (List.subset_append_left known []), nofun⟩
  | cons code codes ih =>
    obtain ⟨⟨answer, s⟩, first, rest⟩ := Option.bind_eq_some_iff.mp come
    obtain ⟨⟨others, last⟩, next, same⟩ := Option.map_eq_some_iff.mp rest
    cases same
    obtain ⟨grown, middle, given⟩ := answer_kept kept first
    have middle : (session.resume s).frames.Kept (known ++ [code]) := middle
    obtain ⟨precision, grown', end', values⟩ := ih middle next
    have all : known ++ [code] ++ codes = known ++ code :: codes := by simp
    rw [all] at end' values
    refine ⟨precision, grown.trans grown', end', List.forall_mem_cons.mpr ⟨fun v hv => ?_, values⟩⟩
    exact (given v hv).mono (all ▸ List.subset_append_left _ codes) grown'

end Session

end DecimalLisp
