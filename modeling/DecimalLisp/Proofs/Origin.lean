import DecimalLisp.Proofs.Frames
import DecimalLisp.Proofs.Session.Visits

/-!
# Where code comes from

Code comes from the texts that are run. A tree stands in a text if it is the expression that is read
from it, or stands somewhere in its lists. A procedure's parameters and body stand there in the form
that made it. Frames that hold only such procedures, numbers and symbols still do so when a value
of this kind is bound, or a frame is made inside one of them.
-/

namespace DecimalLisp

open Reader

namespace Value

/-- A value is a tree, or stands somewhere in its lists. -/
inductive Within : Value → Value → Prop where
  | refl {v : Value} : Within v v
  | item {v w : Value} {items : List Value} : w ∈ items → Within v w → Within v (.list items)

/-- An expression stands in one of several texts. -/
def WrittenIn (codes : List String) (v : Value) : Prop :=
  ∃ code ∈ codes, ∃ tree, parse code = .ok tree ∧ v.Within tree

/-- A list that makes a procedure. Only the first of its bodies is used. -/
def lambdaForm (formals : List Value) (body : Value) (others : List Value) : Value :=
  .list (.symbol SpecialForm.lambda.name :: .list formals :: body :: others)

/-- All procedures in a value that are not builtin were made by forms in the texts. -/
def ProceduresFrom (codes : List String) (v : Value) : Prop :=
  ∀ formals body f, (Value.lambda formals body f).Within v →
    ∃ others, (lambdaForm formals body others).WrittenIn codes

/-- Values that may occur when several texts were run and there are so many frames. -/
inductive Made (codes : List String) (n : ℕ) : Value → Prop where
  | number (x) : Made codes n (.number x)
  | constant (x) : Made codes n (.constant x)
  | symbol {name} : (Value.symbol name).WrittenIn codes → Made codes n (.symbol name)
  | list {items} : (∀ v ∈ items, Made codes n v) → Made codes n (.list items)
  | builtin (b) : Made codes n (.builtin b)
  | lambda (names : List String) {body others f} :
      (lambdaForm (names.map .symbol) body others).WrittenIn codes → f < n →
        Made codes n (.lambda (names.map .symbol) body f)

variable {codes codes' : List String} {n m : ℕ} {u v w : Value}

theorem Within.trans (h : Within u v) (h' : Within v w) : Within u w := by
  induction h' with
  | refl => exact h
  | item mem _ ih => exact .item mem ih

theorem Within.plain (h : Within v w) (plain : w.Plain) : v.Plain := by
  induction h with
  | refl => exact plain
  | item mem _ ih => exact ih (plain_of_mem plain mem)

theorem WrittenIn.mono (more : codes ⊆ codes') (h : v.WrittenIn codes) : v.WrittenIn codes' := by
  obtain ⟨code, mem, rest⟩ := h
  exact ⟨code, more mem, rest⟩

/-- What stands in an expression stands where the expression stands. -/
theorem WrittenIn.within (h : w.WrittenIn codes) (inside : v.Within w) : v.WrittenIn codes := by
  obtain ⟨code, mem, tree, read, whole⟩ := h
  exact ⟨code, mem, tree, read, inside.trans whole⟩

theorem WrittenIn.item {items : List Value} (h : (Value.list items).WrittenIn codes)
    (mem : v ∈ items) : v.WrittenIn codes :=
  h.within (.item mem .refl)

/-- What is written is a tree of numbers and symbols. -/
theorem WrittenIn.plain (h : v.WrittenIn codes) : v.Plain := by
  obtain ⟨code, -, tree, read, inside⟩ := h
  exact inside.plain (plain_of_parse read)

theorem Made.mono (more : codes ⊆ codes') (grown : n ≤ m) (h : v.Made codes n) :
    v.Made codes' m := by
  induction h with
  | number x => exact .number x
  | constant x => exact .constant x
  | symbol written => exact .symbol (written.mono more)
  | list _ ih => exact .list ih
  | builtin b => exact .builtin b
  | lambda names written made => exact .lambda names (written.mono more) (made.trans_le grown)

theorem Made.grow (grown : n ≤ m) (h : v.Made codes n) : v.Made codes m :=
  h.mono (List.Subset.refl codes) grown

/-- What is written may occur. -/
theorem WrittenIn.made (h : v.WrittenIn codes) : v.Made codes n := by
  have plain := h.plain
  induction plain with
  | number x => exact .number x
  | symbol name => exact .symbol h
  | list _ ih => exact .list fun v mem => ih v mem (h.item mem)

/-- A value that may occur is sound. -/
theorem Made.sound (h : v.Made codes n) : v.Sound n := by
  induction h with
  | number x => exact .number x
  | constant x => exact .constant x
  | @symbol name _ => exact .symbol name
  | list _ ih => exact .list ih
  | builtin b => exact .builtin b
  | lambda names written made => exact .lambda names (written.item (by simp)).plain made

/-- Procedures in a value that may occur were made by forms in the texts. -/
theorem Made.proceduresFrom (h : v.Made codes n) : v.ProceduresFrom codes := by
  intro formals body f inside
  induction h with
  | list _ ih =>
    cases inside with
    | item mem deeper => exact ih _ mem deeper
  | lambda names written _ =>
    cases inside
    exact ⟨_, written⟩
  | _ => cases inside

end Value

/-! ## Faults -/

namespace Fault

/-- The values that the message of a fault shows. -/
def shown : Fault → List Value
  | malformed (.definitionName name) => [name]
  | notProcedure head => [head]
  | notNumber argument => [argument]
  | notParameter parameter => [parameter]
  | notBindable name => [name]
  | listAsName name => [name]
  | undefined name => [name]
  | _ => []

/-- Whether a fault is one of reading. -/
def ofReading : Fault → Bool
  | unreadable _ => true
  | _ => false

/-- Faults that may be raised when several texts were run and there are so many frames. -/
structure Kept (codes : List String) (n : ℕ) (fault : Fault) : Prop where
  /-- The fault is reported. -/
  reported : fault.reported = true
  /-- It is no fault of reading. -/
  evaluated : fault.ofReading = false
  /-- Its message shows nothing but values that may occur. -/
  made : ∀ v ∈ fault.shown, v.Made codes n

end Fault

/-! ## Frames -/

namespace Frames

/-- What is kept up in the frames while texts are run. -/
structure Kept (codes : List String) (frames : Frames) : Prop where
  /-- There is a root frame. -/
  root : Session.root < frames.size
  /-- A frame lies inside a frame that was made before it. -/
  earlier : ∀ i o, frames.outer? i = some o → o < i
  /-- Only the root frame lies inside no frame. -/
  inner : ∀ i < frames.size, frames.outer? i = none → i = Session.root
  /-- No name is bound twice in a frame. -/
  distinct : ∀ i, (frames.bindings i).names.Nodup
  /-- Values that are bound may occur. -/
  made : ∀ i, ∀ entry ∈ frames.bindings i, entry.2.Made codes frames.size

namespace Kept

variable {codes codes' : List String} {frames : Frames}

theorem mono (more : codes ⊆ codes') (h : frames.Kept codes) : frames.Kept codes' where
  root := h.root
  earlier := h.earlier
  inner := h.inner
  distinct := h.distinct
  made i entry mem := (h.made i entry mem).mono more le_rfl

/-- The value of a name may occur. -/
theorem value? (h : frames.Kept codes) {f : FrameId} {name : String} {v : Value}
    (bound : frames.value? f (.symbol name) = some v) : v.Made codes frames.size := by
  rw [value?_symbol] at bound
  obtain ⟨i, -, found⟩ := Option.bind_eq_some_iff.mp bound
  rw [Bindings.value?, List.lookup_eq_some_iff] at found
  obtain ⟨before, after, split, -⟩ := found
  exact h.made i (name, v) (by rw [split]; simp)

/-- A value that may occur may be bound. -/
theorem write (h : frames.Kept codes) {f : FrameId} (there : f < frames.size) (name : String)
    {v : Value} (made : v.Made codes frames.size) : (frames.write f name v).Kept codes := by
  have size : (frames.write f name v).size = frames.size := size_rebind _ _ _
  have outer : ∀ i, (frames.write f name v).outer? i = frames.outer? i :=
    fun i => frames.outer?_rebind f i _
  refine ⟨size ▸ h.root, fun i o => outer i ▸ h.earlier i o,
    fun i hi => outer i ▸ h.inner i (size ▸ hi), fun i => ?_, fun i entry mem => ?_⟩
  · rw [bindings_write _ _ _ _ _ there]
    split
    · exact Bindings.nodup_write (h.distinct f) name v
    · exact h.distinct i
  · rw [size]
    rw [bindings_write _ _ _ _ _ there] at mem
    split at mem
    · rcases Bindings.of_mem_write mem with before | rfl
      · exact h.made f entry before
      · exact made
    · exact h.made i entry mem

/-- A frame that lies inside another one may be made. -/
theorem push (h : frames.Kept codes) {o : FrameId} (there : o < frames.size) {bindings : Bindings}
    (distinct : bindings.names.Nodup) (made : ∀ entry ∈ bindings, entry.2.Made codes frames.size) :
    (frames.push ⟨bindings, some o⟩).Kept codes := by
  have size : (frames.push ⟨bindings, some o⟩).size = frames.size + 1 := size_push _ _
  have grown : frames.size ≤ (frames.push ⟨bindings, some o⟩).size := by omega
  refine ⟨h.root.trans_le grown, fun i o' => ?_, fun i hi => ?_, fun i => ?_, fun i entry mem => ?_⟩
  · rw [outer?_push]
    split
    · next new =>
      rintro ⟨⟩
      exact new ▸ there
    · exact h.earlier i o'
  · rw [outer?_push]
    split
    · nofun
    · next old =>
      rw [size] at hi
      exact h.inner i ((Nat.lt_succ_iff_lt_or_eq.mp hi).resolve_right old)
  · rw [bindings_push]
    split
    · exact distinct
    · exact h.distinct i
  · rw [bindings_push] at mem
    refine Value.Made.grow grown ?_
    split at mem
    · exact made entry mem
    · exact h.made i entry mem

end Kept

end Frames

end DecimalLisp
