import DecimalLisp.Evaluation.Step
import DecimalLisp.Decimal.Order
import DecimalLisp.Proofs.Reader

/-!
# Likeness of two runs

Two runs that go the same way need not hold the same values: numbers may be written in
different forms, frames may have different numbers, and a name that nobody asks for may be
bound in one and not in the other. A likeness says how much the two may differ. It relates
their code, their values and their faults; like values look the same in print, and like faults
are of one kind.
-/

namespace DecimalLisp

/-- How much two runs may differ. Their frames are the same ones up to a number of frames that
both had at first; after those the second run may have some more, and its later frames are
counted on from there. -/
structure Likeness where
  /-- How numbers may differ that are written in the code. -/
  literal : Decimal → Decimal → Prop
  /-- How numbers may differ that are values. -/
  number : Decimal → Decimal → Prop
  /-- The names that no code asks for, and that frames may bind as they like. -/
  hidden : String → Bool
  /-- How many frames both runs had at first. -/
  shared : ℕ
  /-- How many frames more the second run had at first. -/
  extra : ℕ
  /-- A number that is written is a value. -/
  number_of_literal : ∀ {x y}, literal x y → number x y
  /-- A number is like itself. -/
  refl : ∀ x, number x x
  /-- Like numbers have one text. -/
  plainText : ∀ {x y}, number x y → x.plainText = y.plainText
  /-- Like numbers are compared alike. -/
  compare : ∀ {x x' y y'}, number x x' → number y y' → x.compareValue y = x'.compareValue y'

/-- Two results that are values, related as values are to be, or faults, related as faults. -/
inductive Results {ε ε' α β : Type} (faults : ε → ε' → Prop) (values : α → β → Prop) :
    Except ε α → Except ε' β → Prop where
  | ok {a b} : values a b → Results faults values (.ok a) (.ok b)
  | error {x y} : faults x y → Results faults values (.error x) (.error y)

/-- A weaker relation holds between the same values, if there are any. -/
theorem rel_imp {α β : Type} {related related' : α → β → Prop} {x : Option α} {y : Option β}
    (h : Option.Rel related x y) (weaker : ∀ a b, related a b → related' a b) :
    Option.Rel related' x y := by
  cases h with
  | none => exact .none
  | some h => exact .some (weaker _ _ h)

/-- Lists have equal images if their items have. -/
theorem map_eq_map_of_forall₂ {α β γ : Type} {f : α → γ} {g : β → γ} {xs : List α} {ys : List β}
    (h : List.Forall₂ (fun x y => f x = g y) xs ys) : xs.map f = ys.map g := by
  rwa [← List.forall₂_eq_eq_eq, List.forall₂_map_left_iff, List.forall₂_map_right_iff]

/-- Weaker relations hold between the same results. -/
theorem Results.mono {ε ε' α β : Type} {faults faults' : ε → ε' → Prop}
    {values values' : α → β → Prop} {x : Except ε α} {y : Except ε' β}
    (h : Results faults values x y) (hf : ∀ x y, faults x y → faults' x y)
    (hv : ∀ a b, values a b → values' a b) : Results faults' values' x y := by
  cases h with
  | ok h => exact .ok (hv _ _ h)
  | error h => exact .error (hf _ _ h)

namespace Likeness

variable (r : Likeness)

/-- The number that a frame of the first run has in the second. -/
def frame (i : ℕ) : ℕ := if i < r.shared then i else i + r.extra

/-- Like pieces of code: the same but for the numbers in them. No hidden name stands where it
would be asked for; it may be the word of a form. -/
inductive Code : Value → Value → Prop where
  | number {x y} : r.literal x y → Code (.number x) (.number y)
  | symbol {name} : r.hidden name = false → Code (.symbol name) (.symbol name)
  | form (form : SpecialForm) {vs ws} : List.Forall₂ Code vs ws →
      Code (.list (.symbol form.name :: vs)) (.list (.symbol form.name :: ws))
  | list {vs ws} : List.Forall₂ Code vs ws → Code (.list vs) (.list ws)

/-- Like values of two runs, the first of which has `n` frames. Like procedures have the same
parameters, like bodies, and were made in frames that answer to each other. -/
inductive Values (n : ℕ) : Value → Value → Prop where
  | number {x y} : r.number x y → Values n (.number x) (.number y)
  | constant {x y} : r.number x y → Values n (.constant x) (.constant y)
  | symbol (name) : Values n (.symbol name) (.symbol name)
  | list {vs ws} : List.Forall₂ (Values n) vs ws → Values n (.list vs) (.list ws)
  | builtin (b) : Values n (.builtin b) (.builtin b)
  | lambda (names : List String) {body body' f} : r.Code body body' → f < n →
      Values n (.lambda (names.map .symbol) body f) (.lambda (names.map .symbol) body' (r.frame f))

/-- Like faults are of one kind. If no two numbers in the code differ they also say the same. -/
def Faults (x y : Fault) : Prop :=
  x.kind = y.kind ∧ ((∀ {a b}, r.literal a b → a = b) → x.message = y.message)

variable {r}

/-! ## Frames -/

theorem frame_of_lt {i : ℕ} (h : i < r.shared) : r.frame i = i := if_pos h

theorem frame_of_le {i : ℕ} (h : r.shared ≤ i) : r.frame i = i + r.extra :=
  if_neg (Nat.not_lt_of_le h)

/-- Frames answer to each other in the order in which they were made. -/
theorem frame_lt_frame_iff {i j : ℕ} : r.frame i < r.frame j ↔ i < j := by
  unfold frame
  split <;> split <;> omega

theorem frame_injective (r : Likeness) : Function.Injective r.frame := by
  intro i j h
  unfold frame at h
  split at h <;> split at h <;> omega

/-! ## Code -/

/-- Induction on like pieces of code: what holds of the parts of two lists may be used for
them. -/
theorem Code.parts_induction {motive : ∀ v w, r.Code v w → Prop}
    (number : ∀ {x y} (h : r.literal x y), motive _ _ (.number h))
    (symbol : ∀ {name} (h : r.hidden name = false), motive _ _ (.symbol h))
    (form : ∀ (form : SpecialForm) {vs ws} (parts : List.Forall₂ r.Code vs ws),
      List.Forall₂ (fun v w => ∃ h, motive v w h) vs ws → motive _ _ (.form form parts))
    (list : ∀ {vs ws} (parts : List.Forall₂ r.Code vs ws),
      List.Forall₂ (fun v w => ∃ h, motive v w h) vs ws → motive _ _ (.list parts))
    {v w : Value} (h : r.Code v w) : motive v w h :=
  @Code.rec r motive (fun vs ws _ => List.Forall₂ (fun v w => ∃ h, motive v w h) vs ws)
    number symbol form list .nil (fun first _ hf hr => .cons ⟨first, hf⟩ hr) v w h

/-- Code that has been read and is not evaluated is a value. -/
theorem Code.values {v w : Value} (h : r.Code v w) (n : ℕ) : r.Values n v w := by
  induction h using Code.parts_induction with
  | number h => exact .number (r.number_of_literal h)
  | symbol _ => exact .symbol _
  | form f _ parts => exact .list (.cons (.symbol _) (parts.imp fun _ _ h => h.2))
  | list _ parts => exact .list (parts.imp fun _ _ h => h.2)

/-- Pieces of code with the same numbers in them are the same. -/
theorem Code.eq (same : ∀ {a b}, r.literal a b → a = b) {v w : Value} (h : r.Code v w) :
    v = w := by
  induction h using Code.parts_induction with
  | number h => rw [same h]
  | symbol _ => rfl
  | form f _ parts =>
    have equal := parts.imp fun _ _ h => h.2
    rw [List.forall₂_eq_eq_eq] at equal
    rw [equal]
  | list _ parts =>
    have equal := parts.imp fun _ _ h => h.2
    rw [List.forall₂_eq_eq_eq] at equal
    rw [equal]

/-! ## Values -/

/-- Induction on like values: what holds of the items of two lists may be used for them. -/
theorem Values.items_induction {n : ℕ} {motive : ∀ v w, r.Values n v w → Prop}
    (number : ∀ {x y} (h : r.number x y), motive _ _ (.number h))
    (constant : ∀ {x y} (h : r.number x y), motive _ _ (.constant h))
    (symbol : ∀ name, motive _ _ (.symbol name))
    (list : ∀ {vs ws} (items : List.Forall₂ (r.Values n) vs ws),
      List.Forall₂ (fun v w => ∃ h, motive v w h) vs ws → motive _ _ (.list items))
    (builtin : ∀ b, motive _ _ (.builtin b))
    (lambda : ∀ (names : List String) {body body' f} (code : r.Code body body') (made : f < n),
      motive _ _ (.lambda names code made))
    {v w : Value} (h : r.Values n v w) : motive v w h :=
  @Values.rec r n motive (fun vs ws _ => List.Forall₂ (fun v w => ∃ h, motive v w h) vs ws)
    number constant symbol list builtin lambda .nil
    (fun first _ hf hr => .cons ⟨first, hf⟩ hr) v w h

/-- Values stay alike when frames are added. -/
theorem Values.mono {n m : ℕ} (more : n ≤ m) {v w : Value} (h : r.Values n v w) :
    r.Values m v w := by
  induction h using Values.items_induction with
  | number h => exact .number h
  | constant h => exact .constant h
  | symbol name => exact .symbol name
  | list _ items => exact .list (items.imp fun _ _ h => h.2)
  | builtin b => exact .builtin b
  | lambda names code made => exact .lambda names code (made.trans_le more)

/-- Like values have the same printed text. -/
theorem Values.print_eq {n : ℕ} {v w : Value} (h : r.Values n v w) : v.print = w.print := by
  induction h using Values.items_induction with
  | number h => rw [Value.print, Value.print, r.plainText h]
  | constant h => rw [Value.print, Value.print, r.plainText h]
  | symbol name => rfl
  | @list vs ws _ items =>
    have texts : vs.map Value.print = ws.map Value.print :=
      map_eq_map_of_forall₂ (items.imp fun _ _ h => h.2)
    rw [Value.print, Value.print, Value.printAll_eq, Value.printAll_eq, texts]
  | builtin b => rfl
  | lambda names _ _ => rfl

/-- Like values are both false or both true. -/
theorem Values.isFalse_eq {n : ℕ} {v w : Value} (h : r.Values n v w) :
    v.isFalse = w.isFalse := by
  cases h with
  | list items => cases items <;> rfl
  | _ => rfl

/-- Like values are both procedures or neither is one. -/
theorem Values.isProcedure_eq {n : ℕ} {v w : Value} (h : r.Values n v w) :
    v.isProcedure = w.isProcedure := by
  cases h <;> rfl

/-- Like values are like numbers, or neither is a number. -/
theorem Values.number? {n : ℕ} {v w : Value} (h : r.Values n v w) :
    Option.Rel r.number v.number? w.number? := by
  cases h with
  | number h => exact .some h
  | constant h => exact .some h
  | symbol _ | list _ | builtin _ | lambda _ _ _ => exact .none

/-! ## Faults -/

theorem Faults.refl (x : Fault) : r.Faults x x := ⟨rfl, fun _ => rfl⟩

/-- A fault about a piece of code that shows its printed text. -/
theorem Faults.of_print {x y : Fault} {lead : String} {n : ℕ} {v w : Value}
    (kind : x.kind = y.kind) (hx : x.message = lead ++ v.print) (hy : y.message = lead ++ w.print)
    (h : r.Values n v w) : r.Faults x y :=
  ⟨kind, fun _ => by rw [hx, hy, h.print_eq]⟩

theorem Faults.notProcedure {v w : Value} (h : r.Code v w) :
    r.Faults (.notProcedure v) (.notProcedure w) :=
  .of_print rfl rfl rfl (h.values 0)

theorem Faults.notNumber {n : ℕ} {v w : Value} (h : r.Values n v w) :
    r.Faults (.notNumber v) (.notNumber w) :=
  .of_print rfl rfl rfl h

theorem Faults.notParameter {v w : Value} (h : r.Code v w) :
    r.Faults (.notParameter v) (.notParameter w) :=
  .of_print rfl rfl rfl (h.values 0)

/-- The message on a defined name shows the digits of the numbers in it. -/
theorem Faults.definitionName {v w : Value} (h : r.Code v w) :
    r.Faults (.malformed (.definitionName v)) (.malformed (.definitionName w)) :=
  ⟨rfl, fun same => by rw [h.eq same]⟩

end Likeness

end DecimalLisp
