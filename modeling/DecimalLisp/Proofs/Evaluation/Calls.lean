import DecimalLisp.Proofs.Evaluation.Upkeep

/-!
# Calls

A procedure is applied at the moment when the last of its arguments is given, or when the procedure
itself is given and has no arguments. It is applied by the evaluation that has waited for them, and
the body that it leads to is entered in place of the application. Besides such bodies only branches
of conditionals are entered in place of something else.
-/

namespace DecimalLisp

open Moment

/-- The value that is applied once the value that was waited for is there. -/
def Pending.applied? : Pending → Value → Option Value
  | head _ [], v => if v.isProcedure then some v else none
  | argument procedure _ [], _ => some procedure
  | _, _ => none

/-- The value that is applied at a moment, by the innermost evaluation that waits. -/
def Moment.applied? (m : Moment) : Option Value :=
  match m.event, m.active with
  | .give v, a :: _ => a.pending.applied? v
  | _, _ => none

section Tails

variable {p : Precision} {pending : Pending} {v w e e' : Value} {vs : List Value}
  {f f' : FrameId} {s s' : State}

/-- A value that is applied has been given, or it was in hand. -/
theorem applied_mem (h : pending.applied? v = some w) : w ∈ v :: pending.inHand := by
  unfold Pending.applied? at h
  split at h
  · split at h <;> cases h
    exact List.mem_cons_self
  · cases h
    simp [Pending.inHand]
  · cases h

/-- A value that is applied at a moment is in hand. -/
theorem applied_mem_inHand {m : Moment} (h : m.applied? = some w) : w ∈ m.inHand := by
  obtain ⟨event, active, s⟩ := m
  cases event with
  | give v =>
    cases active with
    | nil => cases h
    | cons a rest =>
      rcases List.mem_cons.mp (applied_mem h) with rfl | mem
      · exact List.mem_cons_self
      · exact List.mem_append_right _ (List.mem_flatMap.mpr ⟨a, List.mem_cons_self, mem⟩)
  | _ => cases h

/-- A call leads to the body of the procedure that is called. -/
theorem tail_of_applyProcedure (h : applyProcedure p v vs s = .done (.tail e f) s') :
    ∃ formals c, v = .lambda formals e c := by
  unfold applyProcedure at h
  split at h
  · next b => cases result : b.apply p vs <;> rw [result] at h <;> cases h
  · next formals body c =>
    cases called : Frame.ofCall formals c vs <;> rw [called] at h <;> cases h
    exact ⟨formals, c, rfl⟩
  · cases h

/-- The value of the last part leads to a branch that has waited, or into the body of the procedure
that is applied. -/
theorem tail_of_resume (h : pending.resume p idle f v s = .done (.tail e f') s') :
    e ∈ pending.code ∨ ∃ formals c, pending.applied? v = some (.lambda formals e c) := by
  cases pending with
  | test yes no =>
    cases h
    refine .inl ?_
    split <;> simp [Pending.code]
  | define name e' => cases h
  | assign name => cases h
  | head word parts =>
    rw [Pending.resume] at h
    split at h
    · next procedure =>
      cases parts with
      | nil =>
        obtain ⟨formals, c, rfl⟩ := tail_of_applyProcedure h
        exact .inr ⟨formals, c, by rw [Pending.applied?, if_pos procedure]⟩
      | cons part rest => cases h
    · cases h
  | argument procedure given parts =>
    cases parts with
    | nil =>
      obtain ⟨formals, c, rfl⟩ := tail_of_applyProcedure h
      exact .inr ⟨formals, c, rfl⟩
    | cons part rest => cases h

/-- A form that evaluates no part leads to no other expression. -/
theorem step_form_ne_tail (form : SpecialForm) (parts : List Value) :
    form.step idle f parts s ≠ .done (.tail e f') s' := by
  intro h
  unfold SpecialForm.step at h
  split at h
  case h_11 formals bodies =>
    cases first : SpecialForm.firstNonSymbol? formals with
    | some other =>
      rw [first] at h
      cases h
    | none =>
      rw [first] at h
      rcases bodies with _ | ⟨body, _ | ⟨second, others⟩⟩ <;> cases h
  all_goals cases h

/-- A step that evaluates no part leads to no other expression. -/
theorem step_ne_tail : step p idle e f s ≠ .done (.tail e' f') s' := by
  intro h
  cases e with
  | symbol name =>
    rw [step, Action.bind_apply] at h
    cases bound : s.frames.value? f (.symbol name) with
    | some v =>
      rw [Action.lookup_of_some bound] at h
      cases h
    | none =>
      rw [Action.lookup_of_none bound] at h
      cases h
  | list items =>
    cases items with
    | nil => cases h
    | cons head parts =>
      rw [step] at h
      cases word : SpecialForm.ofHead? head with
      | none =>
        rw [word] at h
        cases h
      | some form =>
        rw [word] at h
        exact step_form_ne_tail form parts h
  | _ => cases h

/-- What is entered after a value was given has waited for it, or is the body of the procedure that
is applied. -/
theorem Moment.entered_after_value {m m' : Moment} (given : m.event = .give v)
    (h : m.next? p = some m') (entered : m'.event = .enter e f) :
    ∃ a ∈ m.active.head?, e ∈ a.pending.code ∨
      ∃ formals c, m.applied? = some (.lambda formals e c) := by
  obtain ⟨event, active, s⟩ := m
  cases given
  cases active with
  | nil => cases h
  | cons a rest =>
    refine ⟨a, rfl, ?_⟩
    rw [next?] at h
    split at h
    · next part waiting found =>
      cases h
      cases entered
      exact .inl (code_of_nextPart found ▸ List.mem_cons_self)
    · cases resumed : a.pending.resume p idle a.frame v s with
      | done next s' =>
        rw [resumed] at h
        cases next with
        | value w =>
          cases h
          cases entered
        | tail e' f' =>
          cases h
          cases entered
          exact tail_of_resume resumed
      | failed fault s' =>
        rw [resumed] at h
        cases h
        cases entered
      | unfinished =>
        rw [resumed] at h
        cases h

end Tails

end DecimalLisp
