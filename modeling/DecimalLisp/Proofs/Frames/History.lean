import DecimalLisp.Proofs.Frames
import Mathlib.Data.List.Induction

/-!
# Frames and their history

Frames are made, inside one another or not, and names are bound in them, at any time and in any
order; some of it may be refused. What was written to a frame, and which frame lies outside it, is
its history, and the history determines the frame: it lists its names in the order in which they
were first written, each with what was last written under it. So it also determines what a name
means from any frame outward, however writes to inner and outer frames have followed one another.
-/

namespace DecimalLisp

namespace Bindings

/-- Entries as a mapping has them: no symbol stands in two of them. -/
def IsMapping (entries : List (Value × Value)) : Prop :=
  entries.Pairwise fun a b => sameSymbol a.1 b.1 = false

/-- The entries before the first whose name is no symbol. -/
def accepted : List (Value × Value) → List (String × Value)
  | (.symbol name, value) :: rest => (name, value) :: accepted rest
  | _ => []

/-- Why not all entries are accepted: the first name that is no symbol. -/
def refusal? (entries : List (Value × Value)) : Option Fault :=
  (entries.find? fun entry => entry.1.symbolName?.isNone).map fun entry => .notBindable entry.1

/-- Entries are bound up to the first that is refused. -/
theorem bindEntries_eq (bindings : Bindings) (entries : List (Value × Value)) :
    bindings.bindEntries entries = (bindings.writeAll (accepted entries), refusal? entries) := by
  induction entries generalizing bindings with
  | nil => rfl
  | cons entry rest ih =>
    obtain ⟨name, value⟩ := entry
    cases name with
    | symbol word => exact ih (bindings.write word value)
    | _ => rfl

/-- A name that is refused is not accepted. -/
theorem accepted_of_refused {name value : Value} {fault : Fault}
    (refused : refusal? [(name, value)] = some fault) : accepted [(name, value)] = [] := by
  cases name with
  | symbol word => cases refused
  | _ => rfl

/-- What is written under a new key comes after the others. -/
theorem writeKey_of_apart {entries : List (Value × Value)} {name : Value}
    (apart : ∀ entry ∈ entries, sameSymbol entry.1 name = false) (value : Value) :
    writeKey sameSymbol name value entries = entries ++ [(name, value)] := by
  induction entries with
  | nil => rfl
  | cons entry rest ih =>
    obtain ⟨first, later⟩ := List.forall_mem_cons.mp apart
    rw [writeKey, first, if_neg Bool.false_ne_true, ih later, List.cons_append]

/-- A mapping is made of its entries. -/
theorem mapping_eq {entries : List (Value × Value)} (distinct : IsMapping entries) :
    mapping entries = entries := by
  suffices h : ∀ known : List (Value × Value), IsMapping (known ++ entries) →
      entries.foldl (fun known pair => writeKey sameSymbol pair.1 pair.2 known) known =
        known ++ entries from h [] distinct
  clear distinct
  induction entries with
  | nil => exact fun known _ => (List.append_nil known).symm
  | cons entry rest ih =>
    intro known distinct
    have apart : ∀ other ∈ known, sameSymbol other.1 entry.1 = false := fun other mem =>
      (List.pairwise_append.mp distinct).2.2 other mem entry List.mem_cons_self
    rw [List.append_cons] at distinct ⊢
    rw [List.foldl_cons, writeKey_of_apart apart]
    exact ih _ distinct

/-- A mapping is bound up to the first of its entries that is refused. -/
theorem bindAll_eq (bindings : Bindings) {entries : List (Value × Value)}
    (distinct : IsMapping entries) :
    bindings.bindAll entries = (bindings.writeAll (accepted entries), refusal? entries) := by
  rw [bindAll, mapping_eq distinct, bindEntries_eq]

/-- One name is bound as a mapping of one entry. -/
theorem bind_eq (bindings : Bindings) (name value : Value) :
    bindings.bind name value = match refusal? [(name, value)] with
      | none => .ok (bindings.writeAll (accepted [(name, value)]))
      | some fault => .error fault := by
  cases name <;> rfl

theorem writeAll_append (bindings : Bindings) (writes more : List (String × Value)) :
    bindings.writeAll (writes ++ more) = (bindings.writeAll writes).writeAll more :=
  List.foldl_append

/-- Names stand in the order in which they were first written. -/
theorem names_writeAll (writes : List (String × Value)) :
    (writeAll [] writes).names = (writes.map Prod.fst).eraseDups := by
  induction writes using List.reverseRecOn with
  | nil => rfl
  | append_singleton before last ih =>
    have one : (writeAll [] (before ++ [last])).names =
        ((writeAll [] before).write last.1 last.2).names := by
      rw [writeAll_append]
      rfl
    rw [one, names_write, ih, List.map_append, List.eraseDups_append]
    split
    · next known =>
      rw [List.mem_eraseDups] at known
      simp [List.removeAll, known]
    · next new =>
      rw [List.mem_eraseDups] at new
      have apart : List.removeAll [last.1] (before.map Prod.fst) = [last.1] := by
        simp [List.removeAll, new]
      rw [List.map_singleton, apart]
      rfl

/-- A name has the value that was last written under it. -/
theorem value?_writeAll (writes : List (String × Value)) (name : String) :
    (writeAll [] writes).value? name =
      (writes.filter (·.1 == name)).getLast?.map Prod.snd := by
  induction writes using List.reverseRecOn with
  | nil => rfl
  | append_singleton before last ih =>
    have one : (writeAll [] (before ++ [last])).value? name =
        ((writeAll [] before).write last.1 last.2).value? name := by
      rw [writeAll_append]
      rfl
    rw [one, value?_write, ih, List.filter_append]
    split
    · next same => simp [same]
    · next other => simp [Ne.symm other]

end Bindings

open Bindings

/-! ## Deeds and their history -/

/-- What can be done to frames. -/
inductive Deed where
  /-- A frame is made with the bindings of a mapping, inside another one or not. -/
  | make (outer : Option FrameId) (entries : List (Value × Value))
  /-- A frame is made for a call of a procedure with these parameters, which may be repeated. -/
  | call (names : List String) (outer : FrameId) (arguments : List Value)
  /-- A name is bound in a frame. -/
  | bind (frame : FrameId) (name value : Value)
  /-- A mapping is bound in a frame. -/
  | bindAll (frame : FrameId) (entries : List (Value × Value))

namespace Deed

/-- Whether a deed makes a frame. -/
def makes : Deed → Bool
  | make _ _ => true
  | call _ _ _ => true
  | bind _ _ _ => false
  | bindAll _ _ => false

/-- Whether a deed concerns frames that are there, of which there are so many, and mappings. -/
def Possible (size : ℕ) : Deed → Prop
  | make outer entries => (∀ o ∈ outer, o < size) ∧ IsMapping entries
  | call _ outer _ => outer < size
  | bind frame _ _ => frame < size
  | bindAll frame entries => frame < size ∧ IsMapping entries

/-- Why a deed is refused: a name is no symbol, or the number of arguments is another than that of
parameters. -/
def refusal? : Deed → Option Fault
  | make _ entries => Bindings.refusal? entries
  | call names _ arguments =>
    if arguments.length = names.length then none
    else some (.argumentCount names.length arguments.length)
  | bind _ name value => Bindings.refusal? [(name, value)]
  | bindAll _ entries => Bindings.refusal? entries

end Deed

namespace Frames

/-- Frames are the same if they are so number by number. -/
theorem ext {frames others : Frames} (same : ∀ i, frames.frame? i = others.frame? i) :
    frames = others :=
  congrArg Frames.mk (Array.ext_getElem? same)

/-- A name that is looked up is undefined if and only if it has no value. -/
theorem lookup_eq_undefined_iff {frames : Frames} {f : FrameId} {name : Value} :
    frames.lookup f name = .error (.undefined name) ↔ frames.value? f name = none := by
  rw [lookup]
  cases frames.value? f name <;> simp

/-- Frames with one more, if it could be made. -/
def pushed (frames : Frames) : Except Fault Frame → Frames × Option Fault
  | .ok frame => (frames.push frame, none)
  | .error fault => (frames, some fault)

/-- The frames after a deed, and why it was refused if it was. -/
def after (frames : Frames) : Deed → Frames × Option Fault
  | .make outer entries => frames.pushed (Frame.ofPairs outer entries)
  | .call names outer arguments =>
    frames.pushed (Frame.ofCall (names.map .symbol) outer arguments)
  | .bind frame name value =>
    match frames.bind frame name value with
    | .ok frames => (frames, none)
    | .error fault => (frames, some fault)
  | .bindAll frame entries => frames.bindAll frame entries

/-- The frames after deeds that are done one after the other, from no frames on. -/
def ofDeeds (deeds : List Deed) : Frames :=
  deeds.foldl (fun frames deed => (frames.after deed).1) empty

end Frames

/-- The history of a frame. -/
structure Record where
  /-- The frame outside it. -/
  outer : Option FrameId
  /-- The names and values that were written to it, the earliest first. -/
  writes : List (String × Value)

namespace Record

/-- The names that were written, in the order in which they were first. -/
def names (record : Record) : List String :=
  (record.writes.map Prod.fst).eraseDups

/-- The value that was last written under a name. -/
def last? (record : Record) (name : String) : Option Value :=
  (record.writes.filter (·.1 == name)).getLast?.map Prod.snd

/-- The record with more writes at its end. -/
def more (record : Record) (writes : List (String × Value)) : Record :=
  ⟨record.outer, record.writes ++ writes⟩

/-- The frame to which all that was written, in its order. -/
def frame (record : Record) : Frame :=
  ⟨writeAll [] record.writes, record.outer⟩

/-- A name has a last value if and only if it was written. -/
theorem last?_eq_none_iff {record : Record} {name : String} :
    record.last? name = none ↔ name ∉ record.names := by
  rw [last?, ← value?_writeAll, names, ← names_writeAll, ← binds_iff, binds]
  simp

end Record

/-- The records of all frames, by their numbers. -/
abbrev History := List Record

namespace History

/-- The history after a deed. A deed that makes a frame begins a record, unless it is refused. Other
deeds go on in the record of their frame, up to the first name that is refused. -/
def after (history : History) : Deed → History
  | .make outer entries =>
    if refusal? entries = none then history ++ [⟨outer, accepted entries⟩] else history
  | .call names outer arguments =>
    if arguments.length = names.length then history ++ [⟨some outer, names.zip arguments⟩]
    else history
  | .bind frame name value => history.modify frame (·.more (accepted [(name, value)]))
  | .bindAll frame entries => history.modify frame (·.more (accepted entries))

/-- The history of deeds that are done one after the other, from no frames on. -/
def ofDeeds (deeds : List Deed) : History :=
  deeds.foldl after []

/-- Whether deeds concern frames that are there when they are done. -/
def Possible : History → List Deed → Prop
  | _, [] => True
  | history, deed :: rest => deed.Possible history.length ∧ Possible (history.after deed) rest

/-- Where a name is found from a frame outward: in the nearest frame to which it was written. -/
inductive Nearest (history : History) (name : String) : FrameId → Option FrameId → Prop where
  | here {f record} : history[f]? = some record → name ∈ record.names →
      Nearest history name f (some f)
  | outward {f record outer found} : history[f]? = some record → name ∉ record.names →
      record.outer = some outer → Nearest history name outer found → Nearest history name f found
  | nowhere {f record} : history[f]? = some record → name ∉ record.names →
      record.outer = none → Nearest history name f none

/-- The frames of a history. -/
def frames (history : History) : Frames :=
  ⟨(history.map Record.frame).toArray⟩

/-- A frame lies inside no frame, or inside one that was made before it. -/
def Descends (history : History) : Prop :=
  ∀ (f : FrameId) (record : Record), history[f]? = some record → ∀ o ∈ record.outer, o < f

variable {history : History} {deed : Deed}

/-! ## Frames are those of their history -/

theorem frame?_frames (history : History) (f : FrameId) :
    history.frames.frame? f = history[f]?.map Record.frame := by
  rw [frames, Frames.frame?, List.getElem?_toArray, List.getElem?_map]

theorem size_frames (history : History) : history.frames.size = history.length := by
  rw [frames, Frames.size, List.size_toArray, List.length_map]

theorem bindings_frames {f : FrameId} {record : Record} (h : history[f]? = some record) :
    history.frames.bindings f = writeAll [] record.writes := by
  rw [Frames.bindings, frame?_frames, h]
  rfl

theorem outer?_frames {f : FrameId} {record : Record} (h : history[f]? = some record) :
    history.frames.outer? f = record.outer := by
  rw [Frames.outer?, frame?_frames, h]
  rfl

/-- A frame more is a record more. -/
theorem push_frames (history : History) (record : Record) :
    history.frames.push record.frame = (history ++ [record]).frames := by
  rw [frames, frames, Frames.push, List.push_toArray, List.map_append]
  rfl

/-- Writes to a frame go on in its record. -/
theorem rebind_frames (history : History) (f : FrameId) (writes : List (String × Value)) :
    history.frames.rebind f (fun _ => (history.frames.bindings f).writeAll writes) =
      frames (history.modify f (·.more writes)) := by
  refine Frames.ext fun i => ?_
  rw [Frames.frame?_rebind, frame?_frames, frame?_frames, frame?_frames, List.getElem?_modify]
  by_cases same : i = f
  · subst same
    cases there : history[i]? with
    | none => simp
    | some record =>
      have bound := bindings_frames there
      simp [bound, Record.more, Record.frame, writeAll_append]
  · simp [same, Ne.symm same]

/-- Nothing more is written. -/
theorem modify_nothing (history : History) (f : FrameId) :
    history.modify f (·.more []) = history := by
  have same : (fun record : Record => record.more []) = id := by
    funext record
    rw [Record.more, List.append_nil, id]
  rw [same, List.modify_id]

/-- The frames after a deed are those of the history after it. -/
theorem after_frames (possible : deed.Possible history.length) :
    (history.frames.after deed) = ((history.after deed).frames, deed.refusal?) := by
  cases deed with
  | make outer entries =>
    rw [Frames.after, Frame.ofPairs, bindAll_eq [] possible.2, after, Deed.refusal?]
    cases refusal? entries with
    | none => exact congrArg (·, none) (push_frames history ⟨outer, accepted entries⟩)
    | some fault => rfl
  | call names outer arguments =>
    rw [Frames.after, Frame.ofCall_symbols, after, Deed.refusal?]
    split
    · exact congrArg (·, none) (push_frames history ⟨some outer, names.zip arguments⟩)
    · rfl
  | bind f name value =>
    rw [Frames.after, Frames.bind, bind_eq, after, Deed.refusal?]
    cases refused : refusal? [(name, value)] with
    | none => rw [← rebind_frames]
    | some fault => rw [accepted_of_refused refused, modify_nothing]
  | bindAll f entries =>
    rw [Frames.after, Frames.bindAll, bindAll_eq _ possible.2, after, ← rebind_frames]
    rfl

/-- Frames are made inside frames that are there. -/
theorem Descends.push {record : Record} (descends : Descends history)
    (there : ∀ o ∈ record.outer, o < history.length) : Descends (history ++ [record]) := by
  intro f other at_f
  rcases Nat.lt_or_ge f history.length with old | new
  · rw [List.getElem?_append_left old] at at_f
    exact descends f other at_f
  · rw [List.getElem?_append_right new, List.getElem?_singleton] at at_f
    split at at_f
    · cases at_f
      exact fun o mem => Nat.lt_of_lt_of_le (there o mem) new
    · cases at_f

/-- Writes leave frames where they are. -/
theorem Descends.modify (descends : Descends history) (f : FrameId)
    (writes : List (String × Value)) : Descends (history.modify f (·.more writes)) := by
  intro i record at_i
  rw [List.getElem?_modify] at at_i
  obtain ⟨before, there, rfl⟩ := Option.map_eq_some_iff.mp at_i
  have outer : (if f = i then before.more writes else before).outer = before.outer := by
    split <;> rfl
  rw [outer]
  exact descends i before there

theorem Descends.after (descends : Descends history) (possible : deed.Possible history.length) :
    Descends (history.after deed) := by
  cases deed with
  | make outer entries =>
    rw [History.after]
    split
    · exact descends.push possible.1
    · exact descends
  | call names outer arguments =>
    rw [History.after]
    split
    · refine descends.push fun o mem => ?_
      cases mem
      exact possible
    · exact descends
  | bind f name value => exact descends.modify f _
  | bindAll f entries => exact descends.modify f _

/-- However many deeds are done, the frames are those of their history. -/
theorem frames_ofDeeds {deeds : List Deed} (possible : Possible [] deeds) :
    Frames.ofDeeds deeds = (ofDeeds deeds).frames ∧ Descends (ofDeeds deeds) := by
  suffices h : ∀ history : History, Descends history → Possible history deeds →
      deeds.foldl (fun frames deed => (frames.after deed).1) history.frames =
        frames (deeds.foldl after history) ∧ Descends (deeds.foldl after history) from
    h [] (fun _ _ h => nomatch h) possible
  clear possible
  induction deeds with
  | nil => exact fun _ descends _ => ⟨rfl, descends⟩
  | cons deed rest ih =>
    intro history descends possible
    rw [List.foldl_cons, List.foldl_cons, after_frames possible.1]
    exact ih _ (descends.after possible.1) possible.2

/-! ## What a name means -/

theorem Descends.down (descends : Descends history) (i o : FrameId)
    (h : history.frames.outer? i = some o) : o < i := by
  rw [Frames.outer?, frame?_frames] at h
  cases there : history[i]? with
  | none => rw [there] at h; cases h
  | some record =>
    rw [there] at h
    exact descends i record there o h

/-- A name is found in a frame, or else where it is found from the frame outside. -/
theorem Descends.find?_eq {f : FrameId} {record : Record} (descends : Descends history)
    (there : history[f]? = some record) (name : String) :
    history.frames.find? f (.symbol name) =
      if name ∈ record.names then some f
      else record.outer.bind fun o => history.frames.find? o (.symbol name) := by
  have here : (history.frames.bindings f).binds name = true ↔ name ∈ record.names := by
    rw [bindings_frames there, binds_iff, names_writeAll, Record.names]
  rw [Frames.find?, Frames.outward, Frames.outwardFrom, outer?_frames there, List.find?_cons]
  split
  · next bound => rw [if_pos (here.mp bound)]
  · next unbound =>
    rw [if_neg fun written => Bool.false_ne_true (unbound.symm.trans (here.mpr written))]
    cases outer : record.outer with
    | none => rfl
    | some o =>
      have below : o < f := descends f record there o outer
      rw [Option.bind_some, Frames.find?, Frames.outward,
        Frames.outwardFrom_eq_of_lt descends.down (Nat.lt_succ_self o) below]

theorem Nearest.find?_eq {name : String} {f : FrameId} {found : Option FrameId}
    (nearest : Nearest history name f found) (descends : Descends history) :
    history.frames.find? f (.symbol name) = found := by
  induction nearest with
  | here there written => rw [descends.find?_eq there, if_pos written]
  | outward there unwritten outer _ ih =>
    rw [descends.find?_eq there, if_neg unwritten, outer, Option.bind_some, ih]
  | nowhere there unwritten outer =>
    rw [descends.find?_eq there, if_neg unwritten, outer, Option.bind_none]

/-- From every frame a name is found somewhere or nowhere. -/
theorem Descends.exists_nearest (descends : Descends history) (name : String) {f : FrameId}
    {record : Record} (there : history[f]? = some record) :
    ∃ found, Nearest history name f found := by
  induction f using Nat.strongRecOn generalizing record with
  | ind f ih =>
    by_cases written : name ∈ record.names
    · exact ⟨some f, .here there written⟩
    · cases outer : record.outer with
      | none => exact ⟨none, .nowhere there written outer⟩
      | some o =>
        have below : o < f := descends f record there o outer
        have inside : o < history.length :=
          Nat.lt_trans below (List.getElem?_eq_some_iff.mp there).1
        obtain ⟨found, nearest⟩ := ih o below (List.getElem?_eq_getElem inside)
        exact ⟨found, .outward there written outer nearest⟩

theorem Descends.find?_eq_iff (descends : Descends history) {f : FrameId} {record : Record}
    (there : history[f]? = some record) (name : String) (found : Option FrameId) :
    history.frames.find? f (.symbol name) = found ↔ Nearest history name f found := by
  refine ⟨fun h => ?_, fun nearest => nearest.find?_eq descends⟩
  obtain ⟨found', nearest⟩ := descends.exists_nearest name there
  rw [← h, nearest.find?_eq descends]
  exact nearest

/-- The frame in which a name is found is one to which it was written. -/
theorem Nearest.written {name : String} {f g : FrameId} {found : Option FrameId}
    (nearest : Nearest history name f found) (some_g : found = some g) :
    ∃ record, history[g]? = some record ∧ name ∈ record.names := by
  induction nearest with
  | here there written =>
    cases some_g
    exact ⟨_, there, written⟩
  | outward _ _ _ _ ih => exact ih some_g
  | nowhere => cases some_g

/-- What can be seen of a frame, as its record and those of the frames outside it have it. -/
structure Shows (frames : Frames) (history : History) (f : FrameId) (record : Record) : Prop where
  /-- The frame outside it is that in which it was made. -/
  outer : frames.outer? f = record.outer
  /-- The names stand in the order in which they were first written. -/
  names : (frames.bindings f).names = record.names
  /-- A name is found in the nearest frame to which it was written. -/
  find (name : String) (found : Option FrameId) :
    frames.find? f (.symbol name) = found ↔ Nearest history name f found
  /-- There it has the value that was last written under it. -/
  value (name : String) (g : FrameId) (found : frames.find? f (.symbol name) = some g) :
    ∃ nearest v, history[g]? = some nearest ∧ nearest.last? name = some v ∧
      frames.value? f (.symbol name) = some v ∧ frames.lookup f (.symbol name) = .ok v
  /-- It has no value if and only if it is found nowhere. -/
  noValue (name : String) :
    frames.value? f (.symbol name) = none ↔ frames.find? f (.symbol name) = none
  /-- It is undefined if and only if it is found nowhere. -/
  undefined (name : String) :
    frames.lookup f (.symbol name) = .error (.undefined (.symbol name)) ↔
      frames.find? f (.symbol name) = none

/-- A name that is found somewhere has the value that was last written under it there. -/
theorem Descends.value_eq {f g : FrameId} {record : Record} (descends : Descends history)
    (there : history[f]? = some record) {name : String}
    (found : history.frames.find? f (.symbol name) = some g) :
    ∃ nearest v, history[g]? = some nearest ∧ nearest.last? name = some v ∧
      history.frames.value? f (.symbol name) = some v ∧
      history.frames.lookup f (.symbol name) = .ok v := by
  obtain ⟨nearest, at_g, written⟩ := ((descends.find?_eq_iff there name _).mp found).written rfl
  obtain ⟨v, last⟩ := Option.ne_none_iff_exists'.mp fun unwritten =>
    Record.last?_eq_none_iff.mp unwritten written
  have value : history.frames.value? f (.symbol name) = some v := by
    rw [Frames.value?, found]
    change (history.frames.bindings g).value? name = some v
    rw [bindings_frames at_g, value?_writeAll]
    exact last
  exact ⟨nearest, v, at_g, last, value, by rw [Frames.lookup, value]⟩

/-- A name has no value if and only if it is found nowhere. -/
theorem Descends.value?_eq_none_iff {f : FrameId} {record : Record} (descends : Descends history)
    (there : history[f]? = some record) {name : String} :
    history.frames.value? f (.symbol name) = none ↔
      history.frames.find? f (.symbol name) = none := by
  refine ⟨fun none_value => ?_, fun nowhere => by rw [Frames.value?, nowhere]; rfl⟩
  by_contra somewhere
  obtain ⟨g, found⟩ := Option.ne_none_iff_exists'.mp somewhere
  obtain ⟨-, v, -, -, value, -⟩ := descends.value_eq there found
  cases none_value.symm.trans value

theorem Descends.shows {f : FrameId} {record : Record} (descends : Descends history)
    (there : history[f]? = some record) : Shows history.frames history f record where
  outer := outer?_frames there
  names := by rw [bindings_frames there, names_writeAll, Record.names]
  find := descends.find?_eq_iff there
  value _ _ found := descends.value_eq there found
  noValue _ := descends.value?_eq_none_iff there
  undefined _ := Frames.lookup_eq_undefined_iff.trans (descends.value?_eq_none_iff there)

/-- A frame that is refused leaves the history as it is. -/
theorem after_of_refused (makes : deed.makes = true) (refused : deed.refusal? ≠ none) :
    history.after deed = history := by
  cases deed with
  | make outer entries => exact if_neg refused
  | call names outer arguments =>
    refine if_neg fun fitting => refused ?_
    rw [Deed.refusal?, if_pos fitting]
  | bind f name value => cases makes
  | bindAll f entries => cases makes

end History

open History

/-- Whatever is done to frames, in whatever order, every frame shows its history: the names in the
order in which they were first written, and each name, as seen from any frame, with what was last
written under it in the nearest frame to which it was written at all. What is done next is refused
for its own sake only, and a frame that is refused leaves all others as they were. -/
theorem frames_show_history {deeds : List Deed} (possible : History.Possible [] deeds) :
    (Frames.ofDeeds deeds).size = (History.ofDeeds deeds).length ∧
    (∀ (f : FrameId) (record : Record), (History.ofDeeds deeds)[f]? = some record →
      Shows (Frames.ofDeeds deeds) (History.ofDeeds deeds) f record) ∧
    ∀ deed : Deed, deed.Possible (Frames.ofDeeds deeds).size →
      ((Frames.ofDeeds deeds).after deed).2 = deed.refusal? ∧
      (deed.makes = true → deed.refusal? ≠ none →
        ((Frames.ofDeeds deeds).after deed).1 = Frames.ofDeeds deeds) := by
  obtain ⟨same, descends⟩ := frames_ofDeeds possible
  rw [same, size_frames]
  refine ⟨rfl, fun f record there => descends.shows there, fun deed next => ?_⟩
  rw [after_frames next]
  refine ⟨rfl, fun makes refused => ?_⟩
  rw [after_of_refused makes refused]

/-- Six deeds on three frames, of which two are refused: the innermost frame is that of a call with
a repeated parameter, and a name of the outermost frame is written again at the end. -/
theorem frames_show_history_six_deeds :
    let deeds : List Deed :=
      [.make none [(.symbol "x", .number (.ofNat 1))],
        .make (some 0) [(.symbol "y", .number (.ofNat 2))],
        .call ["a", "a"] 1 [.number (.ofNat 3), .number (.ofNat 4)],
        .bindAll 0 [(.symbol "z", .number (.ofNat 5)), (.number (.ofNat 0), .number (.ofNat 6)),
          (.symbol "w", .number (.ofNat 6))],
        .call ["a"] 0 [],
        .bind 0 (.symbol "x") (.number (.ofNat 7))]
    History.Possible [] deeds ∧ (Frames.ofDeeds deeds).size = 3 ∧
      ((Frames.ofDeeds deeds).bindings 0).names = ["x", "z"] ∧
      (Frames.ofDeeds deeds).lookup 2 (.symbol "x") = .ok (.number (.ofNat 7)) ∧
      (Frames.ofDeeds deeds).lookup 2 (.symbol "a") = .ok (.number (.ofNat 4)) ∧
      (Frames.ofDeeds deeds).find? 2 (.symbol "w") = none := by
  intro deeds
  have possible : History.Possible [] deeds :=
    ⟨⟨nofun, List.pairwise_singleton ..⟩, ⟨by decide, List.pairwise_singleton ..⟩,
      (show 1 < 2 by decide), ⟨(show 0 < 3 by decide), by simp [IsMapping, sameSymbol]⟩,
      (show 0 < 3 by decide), (show 0 < 3 by decide), trivial⟩
  obtain ⟨size, shows, -⟩ := frames_show_history possible
  have innermost := shows 2 _ rfl
  have x_found := (innermost.find "x" (some 0)).mpr
    (.outward rfl (by decide) rfl (.outward rfl (by decide) rfl (.here rfl (by decide))))
  have a_found := (innermost.find "a" (some 2)).mpr (.here rfl (by decide))
  refine ⟨possible, size, (shows 0 _ rfl).names.trans (by decide), ?_, ?_, ?_⟩
  · obtain ⟨nearest, v, there, last, -, value⟩ := innermost.value "x" 0 x_found
    cases there
    cases (show some (Value.number (.ofNat 7)) = some v from last)
    exact value
  · obtain ⟨nearest, v, there, last, -, value⟩ := innermost.value "a" 2 a_found
    cases there
    cases (show some (Value.number (.ofNat 4)) = some v from last)
    exact value
  · exact (innermost.find "w" none).mpr (.outward rfl (by decide) rfl
      (.outward rfl (by decide) rfl (.nowhere rfl (by decide) rfl)))

end DecimalLisp
