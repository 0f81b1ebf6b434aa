import DecimalLisp.Frames
import Mathlib.Data.List.Nodup

/-!
# Frames of calls

A procedure's parameters are symbols, and then a call can fail in one way only: by the number of
its arguments. Its frame is what one gets by writing the arguments under the parameters from
left to right, so a parameter that is repeated keeps its first place and has its last argument.
-/

namespace DecimalLisp

namespace Bindings

/-- Writes entries one after the other. -/
def writeAll (bindings : Bindings) (entries : List (String × Value)) : Bindings :=
  entries.foldl (fun bindings entry => bindings.write entry.1 entry.2) bindings

/-- A new name is written after the others. -/
theorem write_of_not_mem {bindings : Bindings} {name : String} (new : name ∉ bindings.names)
    (value : Value) : bindings.write name value = bindings ++ [(name, value)] := by
  induction bindings with
  | nil => rfl
  | cons first rest ih =>
    obtain ⟨k, v⟩ := first
    rw [names, List.map_cons, List.mem_cons, not_or] at new
    have other : (k == name) = false := beq_eq_false_iff_ne.mpr (Ne.symm new.1)
    have later := ih new.2
    rw [write] at later ⊢
    rw [writeKey, other, if_neg Bool.false_ne_true, later, List.cons_append]

/-- A write leaves no name twice. -/
theorem nodup_write {bindings : Bindings} (distinct : bindings.names.Nodup) (name : String)
    (value : Value) : (bindings.write name value).names.Nodup := by
  rw [names_write]
  split
  · exact distinct
  · next new => exact List.nodup_append.mpr ⟨distinct, List.nodup_singleton name, fun a ha b hb =>
      fun same => new (by rw [← List.mem_singleton.mp hb, ← same]; exact ha)⟩

theorem nodup_writeAll {bindings : Bindings} (distinct : bindings.names.Nodup)
    (entries : List (String × Value)) : (bindings.writeAll entries).names.Nodup := by
  induction entries generalizing bindings with
  | nil => exact distinct
  | cons entry rest ih => exact ih (nodup_write distinct entry.1 entry.2)

/-- Entries of distinct new names come after the others as they are. -/
theorem writeAll_of_nodup {bindings : Bindings} {entries : List (String × Value)}
    (distinct : (names (bindings ++ entries)).Nodup) :
    bindings.writeAll entries = bindings ++ entries := by
  induction entries generalizing bindings with
  | nil => exact (List.append_nil bindings).symm
  | cons entry rest ih =>
    have split : bindings ++ entry :: rest = (bindings ++ [entry]) ++ rest := by simp
    have new : entry.1 ∉ bindings.names := by
      rw [names, List.map_append, List.nodup_append] at distinct
      exact fun old => distinct.2.2 _ old _ (List.mem_cons_self) rfl
    rw [split] at distinct ⊢
    rw [writeAll, List.foldl_cons, write_of_not_mem new]
    exact ih distinct

/-- What is bound after a write was bound before or has just been written. -/
theorem of_mem_write {bindings : Bindings} {name : String} {v : Value} {entry : String × Value}
    (h : entry ∈ bindings.write name v) : entry ∈ bindings ∨ entry = (name, v) := by
  induction bindings with
  | nil => exact .inr (List.mem_singleton.mp h)
  | cons first rest ih =>
    rw [write, writeKey] at h
    split at h
    · next same =>
      rcases List.mem_cons.mp h with rfl | later
      · exact .inr (by rw [beq_iff_eq.mp same])
      · exact .inl (List.mem_cons_of_mem _ later)
    · rcases List.mem_cons.mp h with rfl | later
      · exact .inl List.mem_cons_self
      · exact (ih later).imp_left (List.mem_cons_of_mem _)

theorem of_mem_writeAll {bindings : Bindings} {entries : List (String × Value)}
    {entry : String × Value} (h : entry ∈ bindings.writeAll entries) :
    entry ∈ bindings ∨ entry ∈ entries := by
  induction entries generalizing bindings with
  | nil => exact .inl h
  | cons first rest ih =>
    rcases ih h with before | later
    · refine (of_mem_write before).imp_right ?_
      rintro rfl
      exact List.mem_cons_self
    · exact .inr (List.mem_cons_of_mem _ later)

/-- Entries whose names are given as symbols. -/
def symbols (entries : List (String × Value)) : List (Value × Value) :=
  entries.map fun entry => (.symbol entry.1, entry.2)

/-- In a mapping a symbol is written as its name is among bindings. -/
theorem writeKey_symbols (bindings : Bindings) (name : String) (value : Value) :
    writeKey sameSymbol (.symbol name) value (symbols bindings) =
      symbols (bindings.write name value) := by
  induction bindings with
  | nil => rfl
  | cons first rest ih =>
    obtain ⟨k, v⟩ := first
    rw [symbols] at ih
    rw [write, writeKey, symbols, List.map_cons, writeKey]
    change (if (k == name) = true then _ else _) = _
    split
    · rfl
    · rw [ih]
      rfl

/-- A mapping on symbols is what writing its entries gives. -/
theorem mapping_symbols (entries : List (String × Value)) :
    mapping (symbols entries) = symbols (writeAll [] entries) := by
  suffices h : ∀ bindings : Bindings,
      (symbols entries).foldl (fun known pair => writeKey sameSymbol pair.1 pair.2 known)
        (symbols bindings) = symbols (bindings.writeAll entries) from h []
  induction entries with
  | nil => exact fun _ => rfl
  | cons entry rest ih =>
    intro bindings
    change List.foldl _ (writeKey sameSymbol (.symbol entry.1) entry.2 (symbols bindings))
      (symbols rest) = _
    rw [writeKey_symbols]
    exact ih _

/-- Symbols are never refused. -/
theorem bindEntries_symbols (bindings : Bindings) (entries : List (String × Value)) :
    bindings.bindEntries (symbols entries) = (bindings.writeAll entries, none) := by
  induction entries generalizing bindings with
  | nil => rfl
  | cons entry rest ih => exact ih (bindings.write entry.1 entry.2)

/-- Binding a mapping on symbols in a fresh frame writes its entries. -/
theorem bindAll_symbols (entries : List (String × Value)) :
    bindAll [] (symbols entries) = (writeAll [] entries, none) := by
  have empty : (names []).Nodup := List.nodup_nil
  have distinct : (names ([] ++ writeAll [] entries)).Nodup := nodup_writeAll empty entries
  rw [bindAll, mapping_symbols, bindEntries_symbols, writeAll_of_nodup distinct, List.nil_append]

end Bindings

/-- The frame of a call of a procedure whose parameters are symbols. -/
theorem Frame.ofCall_symbols (names : List String) (outer : FrameId) (arguments : List Value) :
    Frame.ofCall (names.map .symbol) outer arguments =
      if arguments.length = names.length then
        .ok ⟨Bindings.writeAll [] (names.zip arguments), some outer⟩
      else .error (.argumentCount names.length arguments.length) := by
  have noList : (names.map Value.symbol).find? Value.isList = none := by
    rw [List.find?_eq_none]
    intro v hv
    obtain ⟨name, -, rfl⟩ := List.mem_map.mp hv
    exact Bool.false_ne_true
  have pairs : (names.map Value.symbol).zip arguments = Bindings.symbols (names.zip arguments) := by
    rw [List.zip_map_left]
    rfl
  rw [Frame.ofCall, List.length_map, noList, pairs, Frame.ofPairs, Bindings.bindAll_symbols]

namespace Frames

/-- The value of a name is what the nearest frame that binds it says. -/
theorem value?_symbol (frames : Frames) (f : FrameId) (name : String) :
    frames.value? f (.symbol name) =
      ((frames.outward f).find? fun i => (frames.bindings i).binds name).bind fun i =>
        (frames.bindings i).value? name := rfl

/-- A name that a frame binds itself has its value there. -/
theorem value?_here {frames : Frames} {f : FrameId} {name : String} {v : Value}
    (bound : (frames.bindings f).value? name = some v) :
    frames.value? f (.symbol name) = some v := by
  have binds : (frames.bindings f).binds name = true := by
    rw [Bindings.binds, bound]
    rfl
  rw [value?_symbol, outward, outwardFrom]
  simp only [List.find?_cons, binds]
  exact bound

/-- A name that a frame does not bind has the value that the frame outside it has for it. -/
theorem value?_outside {frames : Frames} {f o : FrameId} {name : String} {v : Value}
    (inner : f ≠ 0) (outer : frames.outer? f = some o)
    (unbound : (frames.bindings f).value? name = none)
    (bound : (frames.bindings o).value? name = some v) :
    frames.value? f (.symbol name) = some v := by
  have binds : (frames.bindings f).binds name = false ∧ (frames.bindings o).binds name = true := by
    rw [Bindings.binds, Bindings.binds, unbound, bound]
    exact ⟨rfl, rfl⟩
  obtain ⟨k, rfl⟩ := Nat.exists_eq_succ_of_ne_zero inner
  rw [value?_symbol, outward, outwardFrom, outer]
  simp only [List.find?_cons, binds, outwardFrom]
  exact bound

/-- A frame that is there is made of its bindings and the frame outside it. -/
theorem frame?_eq_some {frames : Frames} {i : FrameId} (h : i < frames.size) :
    frames.frame? i = some ⟨frames.bindings i, frames.outer? i⟩ := by
  have there : frames.frame? i = some frames.toArray[i] := Array.getElem?_eq_getElem h
  rw [bindings, outer?, there]
  rfl

/-- What a frame binds after another frame was added. -/
theorem bindings_push (frames : Frames) (frame : Frame) (i : FrameId) :
    (frames.push frame).bindings i =
      if i = frames.size then frame.bindings else frames.bindings i := by
  rw [bindings, frame?_push]
  split <;> rfl

/-- The frame outside a frame after another one was added. -/
theorem outer?_push (frames : Frames) (frame : Frame) (i : FrameId) :
    (frames.push frame).outer? i = if i = frames.size then frame.outer else frames.outer? i := by
  rw [outer?, frame?_push]
  split <;> rfl

/-- A number that no frame has yet has no frame outside it. -/
theorem outer?_of_size_le {frames : Frames} {i : FrameId} (h : frames.size ≤ i) :
    frames.outer? i = none := by
  rw [outer?, frame?, Array.getElem?_eq_none h, Option.bind_none]

section Outward

variable {frames : Frames} (down : ∀ i o, frames.outer? i = some o → o < i)
include down

/-- The way outward leads through frames that are there. -/
theorem lt_size_of_mem_outwardFrom {steps : ℕ} {f i : FrameId} (start : f < frames.size)
    (h : i ∈ frames.outwardFrom steps f) : i < frames.size := by
  induction steps generalizing f with
  | zero => cases h
  | succ steps ih =>
    rw [outwardFrom, List.mem_cons] at h
    rcases h with rfl | h
    · exact start
    · cases ho : frames.outer? f with
      | none => rw [ho] at h; cases h
      | some o =>
        rw [ho] at h
        exact ih (Nat.lt_trans (down f o ho) start) h

/-- The way outward ends by itself, so all numbers of steps that are large enough give one way. -/
theorem outwardFrom_eq_of_lt {steps more : ℕ} {f : FrameId} (enough : f < steps)
    (enough' : f < more) : frames.outwardFrom steps f = frames.outwardFrom more f := by
  induction steps generalizing f more with
  | zero => cases enough
  | succ steps ih =>
    obtain ⟨more, rfl⟩ := Nat.exists_eq_succ_of_ne_zero (Nat.ne_zero_of_lt enough')
    rw [outwardFrom, outwardFrom]
    cases ho : frames.outer? f with
    | none => rfl
    | some o =>
      have below := down f o ho
      exact congrArg (f :: ·) (ih (Nat.lt_of_lt_of_le below (Nat.le_of_lt_succ enough))
        (Nat.lt_of_lt_of_le below (Nat.le_of_lt_succ enough')))

end Outward

end Frames

end DecimalLisp
