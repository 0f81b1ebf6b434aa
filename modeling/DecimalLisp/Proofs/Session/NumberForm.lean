import DecimalLisp.Proofs.Likeness.ByValue
import DecimalLisp.Proofs.Likeness.Code
import DecimalLisp.Proofs.Likeness.Session
import DecimalLisp.Proofs.Session.Powers

/-!
# The form of numbers does not show

A number may be written in many forms, and arithmetic carries the form on. Still no program can
tell forms of one value apart: rounding, faults of arithmetic, comparison, truth and printing
depend on the value alone. So two sessions whose texts differ in the forms of numbers only answer
alike, and they end with root frames that look alike. That is so in all precisions but the very
largest, where a result can be too small to be shown with all its digits; how many of them are lost
then depends on its form.
-/

namespace DecimalLisp

open Reader Value

/-- Values that differ in the forms of numbers only, and not so that it shows. -/
def Likeness.upToForm : Likeness :=
  byValue Decimal.Alike (fun _ _ same => same) fun _ => false

/-- Texts that are read as trees which differ in the forms of numbers only. -/
def SameUpToForm (code code' : String) : Prop :=
  ∃ v w, parse code = .ok v ∧ parse code' = .ok w ∧ SameTree v w

/-- A text that is read differs from itself in nothing. -/
theorem sameUpToForm_self {code : String} {v : Value} (read : parse code = .ok v) :
    SameUpToForm code code :=
  ⟨v, v, read, read, (plain_of_parse read).sameTree⟩

/-- The names that the root frame binds, with the texts of their values. -/
def Session.rootTexts (session : Session) : List (String × String) :=
  (session.frames.bindings root).map fun entry => (entry.1, entry.2.print)

namespace Likeness

/-- Texts that differ in the forms of numbers are read alike. -/
theorem reads_of_sameUpToForm {code code' : String} (h : SameUpToForm code code') :
    upToForm.Reads code code' := by
  obtain ⟨v, w, hv, hw, same⟩ := h
  rw [Reads, hv, hw]
  exact .ok (code_of_sameTree Decimal.InRange.alike (fun _ => rfl) same (plain_of_parse hv)
    (readable_of_parse hv) (plain_of_parse hw))

/-- Like frames in which nothing is hidden look alike. -/
theorem Bound.texts_eq {r : Likeness} (shown : ∀ name, r.hidden name = false) {n : ℕ}
    {bindings bindings' : Bindings} (h : r.Bound n bindings bindings') :
    bindings.map (fun entry => (entry.1, entry.2.print)) =
      bindings'.map fun entry => (entry.1, entry.2.print) :=
  map_eq_map_of_forall₂ ((h.forall₂ shown).imp fun _ _ both =>
    Prod.ext both.name both.value.print_eq)

end Likeness

/-- Two sessions whose texts differ in the forms of numbers only come to the end of their texts
within the same bounds, when they have one precision and it is none of the largest. Then their
values have the same texts, their faults are of the same kinds, and the root frames bind the same
names to values of the same texts. -/
theorem number_form_unobservable {p : Precision} (few : p.digits ≤ Precision.mostShown)
    {codes codes' : List String} (same : List.Forall₂ SameUpToForm codes codes') (bound : ℕ) :
    Option.Rel
      (fun course course' =>
        course.1.map (Answer.view print Fault.kind) =
            course'.1.map (Answer.view print Fault.kind) ∧
          course.2.rootTexts = course'.2.rootTexts)
      ((Session.standard p).answersWithin bound codes)
      ((Session.standard p).answersWithin bound codes') := by
  have start : Likeness.upToForm.Heaps (Session.standard p).frames (Session.standard p).frames :=
    Likeness.standard_alike (Nat.zero_le 1) rfl (.inr (.refl _))
  have courses := Likeness.answers_alike rfl start Nat.zero_lt_one
    (same.imp fun _ _ => Likeness.reads_of_sameUpToForm)
    (fun operation x y _ => Likeness.byValue_agrees few few rfl) bound
  refine rel_imp courses fun course course' alike => ⟨?_, ?_⟩
  · exact alike.views_eq (fun h => h.print_eq) fun h => h.1
  · have root := alike.heaps.bound Session.root (Nat.zero_lt_one.trans_le alike.grown)
    exact root.texts_eq fun _ => rfl

/-- A third of one is the same however the one and the three are written, and so is the fault of
a division by a zero. -/
theorem number_form_unobservable_third :
    Precision.standard.digits ≤ Precision.mostShown ∧
      List.Forall₂ SameUpToForm ["(define x 1.0)", "(/ x 3)", "(/ x 0.00)"]
        ["(define x 1)", "(/ x 30E-1)", "(/ x -0)"] ∧
      ((Session.standard .standard).answersWithin 5
          ["(define x 1.0)", "(/ x 3)", "(/ x 0.00)"]).isSome = true ∧
      Option.Rel
        (fun course course' =>
          course.1.map (Answer.view print Fault.kind) =
              course'.1.map (Answer.view print Fault.kind) ∧
            course.2.rootTexts = course'.2.rootTexts)
        ((Session.standard .standard).answersWithin 5 ["(define x 1.0)", "(/ x 3)", "(/ x 0.00)"])
        ((Session.standard .standard).answersWithin 5
          ["(define x 1)", "(/ x 30E-1)", "(/ x -0)"]) := by
  have number : ∀ {x y : Decimal}, x.toRat = y.toRat → SameTree (.number x) (.number y) :=
    fun same => .number rfl rfl same
  have ten : (⟨false, 10, -1⟩ : Decimal).toRat = (Decimal.ofNat 1).toRat := by
    norm_num [Decimal.toRat, Decimal.sign, Decimal.ofNat]
  have three : (Decimal.ofNat 3).toRat = (⟨false, 30, -1⟩ : Decimal).toRat := by
    norm_num [Decimal.toRat, Decimal.sign, Decimal.ofNat]
  have zero : (⟨false, 0, -2⟩ : Decimal).toRat = (⟨true, 0, 0⟩ : Decimal).toRat := by
    norm_num [Decimal.toRat]
  have same : List.Forall₂ SameUpToForm ["(define x 1.0)", "(/ x 3)", "(/ x 0.00)"]
      ["(define x 1)", "(/ x 30E-1)", "(/ x -0)"] :=
    .cons ⟨_, _, rfl, rfl, .list (.cons (.symbol _) (.cons (.symbol _) (.cons (number ten) .nil)))⟩
      (.cons ⟨_, _, rfl, rfl,
        .list (.cons (.symbol _) (.cons (.symbol _) (.cons (number three) .nil)))⟩
      (.cons ⟨_, _, rfl, rfl,
        .list (.cons (.symbol _) (.cons (.symbol _) (.cons (number zero) .nil)))⟩ .nil))
  have few : Precision.standard.digits ≤ Precision.mostShown := by decide
  exact ⟨few, same, by decide +kernel, number_form_unobservable few same 5⟩

/-- In the next precision the form of a number can show. A power of a tenth that is too small to be
shown is multiplied by one, and it is shown after all if the one is written with a further digit. -/
theorem number_form_shows :
    let p : Precision := ⟨Precision.mostShown + 1, by decide⟩
    List.Forall₂ SameUpToForm (Session.tinyTexts ++ ["(* t 1)"])
        (Session.tinyTexts ++ ["(* t 1.0)"]) ∧
      ¬ Option.Rel
        (fun course course' =>
          course.1.map (Answer.view print Fault.kind) =
              course'.1.map (Answer.view print Fault.kind) ∧
            course.2.rootTexts = course'.2.rootTexts)
        ((Session.standard p).answersWithin 6 (Session.tinyTexts ++ ["(* t 1)"]))
        ((Session.standard p).answersWithin 6 (Session.tinyTexts ++ ["(* t 1.0)"])) := by
  intro p
  have ten : (Decimal.ofNat 1).toRat = (⟨false, 10, -1⟩ : Decimal).toRat := by
    norm_num [Decimal.toRat, Decimal.sign, Decimal.ofNat]
  have same : List.Forall₂ SameUpToForm (Session.tinyTexts ++ ["(* t 1)"])
      (Session.tinyTexts ++ ["(* t 1.0)"]) := by
    refine List.rel_append (List.forall₂_same.mpr ?_) (.cons ⟨_, _, rfl, rfl,
      .list (.cons (.symbol _) (.cons (.symbol _) (.cons (.number rfl rfl ten) .nil)))⟩ .nil)
    intro code mem
    rcases List.mem_cons.mp mem with rfl | mem
    · exact sameUpToForm_self Session.parse_firstTenth
    · rw [List.eq_of_mem_replicate mem]
      exact sameUpToForm_self Session.parse_tenthPower
  have one : ((Session.standard p).answersWithin 6 (Session.tinyTexts ++ ["(* t 1)"])).map
      (fun course => Answer.lastNumber? course.1) =
      some (some ⟨false, 1, -1000000000000000000⟩) := by decide +kernel
  have other : ((Session.standard p).answersWithin 6 (Session.tinyTexts ++ ["(* t 1.0)"])).map
      (fun course => Answer.lastNumber? course.1) =
      some (some ⟨false, 10, -1000000000000000001⟩) := by decide +kernel
  refine ⟨same, fun alike => ?_⟩
  exact Decimal.plainText_ne_of_shown rfl (by decide)
    (Session.plainText_eq_of_views alike (fun _ _ both => both.1) one other)

end DecimalLisp
