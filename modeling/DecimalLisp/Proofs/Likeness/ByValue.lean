import DecimalLisp.Proofs.Calculation.Results
import DecimalLisp.Proofs.Likeness.Calculation

/-!
# Likeness by the values of numbers

Numbers that stand for one rational are compared alike whatever their forms. They are printed alike
too, unless they are too small to be shown with all their digits. So runs are alike whose numbers
agree in value and in text. For their arithmetic it is enough that the steps on rationals agree, as
long as no result of the two precisions is too small.
-/

namespace DecimalLisp

/-- Numbers that no program can tell apart: they have one value and one text. -/
structure Decimal.Alike (x y : Decimal) : Prop where
  /-- They stand for one rational. -/
  value : x.toRat = y.toRat
  /-- They are printed alike. -/
  text : x.plainText = y.plainText

theorem Decimal.Alike.refl (x : Decimal) : x.Alike x := ⟨rfl, rfl⟩

/-- Numbers in range are alike if their values are the same. -/
theorem Decimal.InRange.alike {x y : Decimal} (range : x.InRange) (h : x.toRat = y.toRat) :
    x.Alike y :=
  ⟨h, plainText_congr range.printed h⟩

namespace Likeness

/-- Values are alike if their numbers are. How numbers in the code may differ and which names are
hidden is left open. -/
def byValue (literal : Decimal → Decimal → Prop) (alike : ∀ x y, literal x y → x.Alike y)
    (hidden : String → Bool) : Likeness where
  literal := literal
  number := Decimal.Alike
  hidden := hidden
  shared := 0
  extra := 0
  number_of_literal := alike _ _
  refl := .refl
  plainText same := same.text
  compare same same' := Decimal.compareValue_congr same.value same'.value

/-- Results of the same images are alike up to what is known of the values. -/
theorem results_of_map_eq {ε α β : Type} {g : α → β} {values : α → α → Prop} {x y : Except ε α}
    (h : x.map g = y.map g) (ok : ∀ a b, x = .ok a → y = .ok b → g a = g b → values a b) :
    Results Eq values x y := by
  cases x with
  | error cause =>
    cases y with
    | error cause' => exact .error (Except.error.inj h)
    | ok b => cases h
  | ok a =>
    cases y with
    | error cause' => cases h
    | ok b => exact .ok (ok a b rfl rfl (Except.ok.inj h))

/-- Steps of arithmetic agree if they do on rationals and no result is too small. -/
theorem byValue_agrees {literal : Decimal → Decimal → Prop}
    {alike : ∀ x y, literal x y → x.Alike y} {hidden : String → Bool}
    {p p' : Precision} (few : p.digits ≤ Precision.mostShown)
    (few' : p'.digits ≤ Precision.mostShown) {operation : Operation} {x y : Decimal}
    (h : operation.exactStep p x.toRat y.toRat = operation.exactStep p' x.toRat y.toRat) :
    (byValue literal alike hidden).Agrees p p' operation x y := by
  intro x' y' (hx : x.Alike x') (hy : y.Alike y')
  refine results_of_map_eq (g := Decimal.toRat) ?_ fun z z' result result' value => ⟨value, ?_⟩
  · rw [Operation.run_toRat, Operation.run_toRat, h, hx.value, hy.value]
  · have fits := Operation.fits_of_run result
    exact fits.plainText_congr (Operation.fits_of_run result') few few' value

end Likeness

end DecimalLisp
