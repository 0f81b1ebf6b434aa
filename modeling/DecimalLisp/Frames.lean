import DecimalLisp.Fault

/-!
# Frames

A frame binds names to values and may have an outer frame. A name means what the
nearest frame outward from the one at hand binds it to. Frames are shared: whoever
knows the number of a frame sees what is written to it later. A write goes to one
frame only, and a frame lists its names in the order in which they were first written.
-/

namespace DecimalLisp

/-- Writes under a key. A key that is there keeps its place and takes the new value;
another comes last. -/
def writeKey {κ ν : Type} (same : κ → κ → Bool) (key : κ) (value : ν) :
    List (κ × ν) → List (κ × ν)
  | [] => [(key, value)]
  | (k, v) :: rest =>
    if same k key then (k, value) :: rest else (k, v) :: writeKey same key value rest

/-- Names with their values, in the order in which the names were first written. -/
abbrev Bindings := List (String × Value)

namespace Bindings

/-- Binds a name. -/
def write (bindings : Bindings) (name : String) (value : Value) : Bindings :=
  writeKey (· == ·) name value bindings

/-- The value of a name. -/
def value? (bindings : Bindings) (name : String) : Option Value :=
  List.lookup name bindings

/-- Whether a name is bound. -/
def binds (bindings : Bindings) (name : String) : Bool :=
  (bindings.value? name).isSome

/-- The names, in their order. -/
def names (bindings : Bindings) : List String :=
  bindings.map Prod.fst

/-- Whether two names are one symbol. -/
def sameSymbol : Value → Value → Bool
  | .symbol a, .symbol b => a == b
  | _, _ => false

/-- Pairs of names and values as a mapping: a symbol that is repeated keeps its first
place and has its last value. -/
def mapping (pairs : List (Value × Value)) : List (Value × Value) :=
  pairs.foldl (fun entries pair => writeKey sameSymbol pair.1 pair.2 entries) []

/-- Binds what is given as a name, if it is a symbol. -/
def bind (bindings : Bindings) : Value → Value → Except Fault Bindings
  | .symbol name, value => .ok (bindings.write name value)
  | other, _ => .error (.notBindable other)

/-- Binds entries one after the other up to the first that is refused. Gives the
bindings then, and why it stopped if it did. -/
def bindEntries (bindings : Bindings) : List (Value × Value) → Bindings × Option Fault
  | [] => (bindings, none)
  | (name, value) :: rest =>
    match bindings.bind name value with
    | .ok next => bindEntries next rest
    | .error fault => (bindings, some fault)

/-- Binds a whole mapping. -/
def bindAll (bindings : Bindings) (pairs : List (Value × Value)) : Bindings × Option Fault :=
  bindings.bindEntries (mapping pairs)

/-- A written name has the written value, and other names keep theirs. -/
theorem value?_write (bindings : Bindings) (name other : String) (value : Value) :
    (bindings.write name value).value? other =
      if other = name then some value else bindings.value? other := by
  induction bindings with
  | nil =>
    by_cases h : other = name
    · simp [write, writeKey, value?, h]
    · simp [write, writeKey, value?, List.lookup_cons, h, beq_eq_false_iff_ne.2 h]
  | cons first rest ih =>
    obtain ⟨k, v⟩ := first
    simp only [write, value?, writeKey] at ih ⊢
    by_cases same : k = name
    · subst same
      by_cases h : other = k
      · simp [h]
      · simp [h, List.lookup_cons, beq_eq_false_iff_ne.2 h]
    · simp only [beq_eq_false_iff_ne.2 same, Bool.false_eq_true, if_false, List.lookup_cons]
      by_cases h : other = k
      · subst h; simp [same]
      · simp only [beq_eq_false_iff_ne.2 h, ih]

/-- Writing keeps the names in their places; a new name comes last. -/
theorem names_write (bindings : Bindings) (name : String) (value : Value) :
    (bindings.write name value).names =
      if name ∈ bindings.names then bindings.names else bindings.names ++ [name] := by
  induction bindings with
  | nil => simp [write, writeKey, names]
  | cons first rest ih =>
    obtain ⟨k, v⟩ := first
    simp only [write, names, writeKey] at ih ⊢
    by_cases same : k = name
    · simp [same]
    · have apart : ¬ name = k := fun h => same h.symm
      simp only [beq_eq_false_iff_ne.2 same, Bool.false_eq_true, if_false, List.map_cons,
        List.mem_cons, apart, false_or, ih]
      by_cases h : name ∈ List.map Prod.fst rest <;> simp [h]

/-- A name is bound exactly when it is among the names. -/
theorem binds_iff (bindings : Bindings) (name : String) :
    bindings.binds name = true ↔ name ∈ bindings.names := by
  induction bindings with
  | nil => simp [binds, value?, names]
  | cons first rest ih =>
    obtain ⟨k, v⟩ := first
    simp only [binds, value?, names, List.lookup_cons, List.map_cons, List.mem_cons] at ih ⊢
    by_cases h : name = k
    · simp [h]
    · simp only [beq_eq_false_iff_ne.2 h, h, false_or, ih]

end Bindings

/-- Bindings and the frame outside them. -/
structure Frame where
  /-- What the frame binds. -/
  bindings : Bindings
  /-- The frame outside this one. -/
  outer : Option FrameId

namespace Frame

/-- A frame with the bindings of a mapping. A refused name makes no frame. -/
def ofPairs (outer : Option FrameId) (pairs : List (Value × Value)) : Except Fault Frame :=
  match Bindings.bindAll [] pairs with
  | (bindings, none) => .ok ⟨bindings, outer⟩
  | (_, some fault) => .error fault

/-- The frame in which a procedure's body runs: its parameters are bound to the
arguments, and the frame outside is the one that the procedure was made in. A parameter
that is a list is refused before any is bound. -/
def ofCall (formals : List Value) (outer : FrameId) (arguments : List Value) :
    Except Fault Frame :=
  if arguments.length = formals.length then
    match formals.find? Value.isList with
    | some name => .error (.listAsName name)
    | none => ofPairs (some outer) (formals.zip arguments)
  else .error (.argumentCount formals.length arguments.length)

end Frame

/-- All frames that were made, by their numbers. -/
structure Frames where
  /-- The frames, in the order in which they were made. -/
  toArray : Array Frame

namespace Frames

/-- No frames. -/
def empty : Frames := ⟨#[]⟩

/-- How many frames there are; the next one gets this number. -/
def size (frames : Frames) : Nat :=
  frames.toArray.size

/-- The frame of a number. -/
def frame? (frames : Frames) (id : FrameId) : Option Frame :=
  frames.toArray[id]?

/-- What a frame binds. -/
def bindings (frames : Frames) (id : FrameId) : Bindings :=
  ((frames.frame? id).map Frame.bindings).getD []

/-- The frame outside a frame. -/
def outer? (frames : Frames) (id : FrameId) : Option FrameId :=
  (frames.frame? id).bind Frame.outer

/-- At most so many frames on the way outward from a frame, which comes first. -/
def outwardFrom (frames : Frames) : Nat → FrameId → List FrameId
  | 0, _ => []
  | steps + 1, id =>
    id :: match frames.outer? id with
      | none => []
      | some outer => outwardFrom frames steps outer

/-- The frames from a frame outward. An outer frame was made before the frames inside it,
so the way has no more frames than there are numbers up to the first. -/
def outward (frames : Frames) (id : FrameId) : List FrameId :=
  frames.outwardFrom (id + 1) id

/-- The fault of asking for a value as a name. Anything but a list may be asked for. -/
def askingFault? (name : Value) : Option Fault :=
  if name.isList then some (.listAsName name) else none

/-- The nearest frame from a frame outward that binds a name. Only symbols are bound. -/
def find? (frames : Frames) (id : FrameId) : Value → Option FrameId
  | .symbol name => (frames.outward id).find? fun other => (frames.bindings other).binds name
  | _ => none

/-- The value of a name in the nearest frame that binds it. -/
def value? (frames : Frames) (id : FrameId) (name : Value) : Option Value := do
  (frames.bindings (← frames.find? id name)).value? (← name.symbolName?)

/-- The value of a name, which has to be bound. -/
def lookup (frames : Frames) (id : FrameId) (name : Value) : Except Fault Value :=
  match frames.value? id name with
  | some value => .ok value
  | none => .error (.undefined name)

/-- Adds a frame, which gets the next number. -/
def push (frames : Frames) (frame : Frame) : Frames :=
  ⟨frames.toArray.push frame⟩

/-- Puts other bindings into one frame. -/
def rebind (frames : Frames) (id : FrameId) (bindings : Bindings → Bindings) : Frames :=
  ⟨frames.toArray.modify id fun frame => ⟨bindings frame.bindings, frame.outer⟩⟩

/-- Binds a name in one frame. -/
def write (frames : Frames) (id : FrameId) (name : String) (value : Value) : Frames :=
  frames.rebind id (·.write name value)

/-- Binds what is given as a name in one frame, if it is a symbol. -/
def bind (frames : Frames) (id : FrameId) (name value : Value) : Except Fault Frames :=
  match (frames.bindings id).bind name value with
  | .ok bindings => .ok (frames.rebind id fun _ => bindings)
  | .error fault => .error fault

/-- Binds a mapping in one frame, up to the first name that is refused. -/
def bindAll (frames : Frames) (id : FrameId) (pairs : List (Value × Value)) :
    Frames × Option Fault :=
  let (bindings, fault) := (frames.bindings id).bindAll pairs
  (frames.rebind id fun _ => bindings, fault)

/-- A frame that is added gets the next number, and the others keep theirs. -/
theorem frame?_push (frames : Frames) (frame : Frame) (id : FrameId) :
    (frames.push frame).frame? id =
      if id = frames.size then some frame else frames.frame? id :=
  Array.getElem?_push

/-- Adding a frame makes one frame more. -/
theorem size_push (frames : Frames) (frame : Frame) :
    (frames.push frame).size = frames.size + 1 := by
  simp [push, size]

/-- New bindings make no new frame. -/
theorem size_rebind (frames : Frames) (id : FrameId) (change : Bindings → Bindings) :
    (frames.rebind id change).size = frames.size := by
  simp [rebind, size]

/-- New bindings concern one frame, and leave the frame outside it. -/
theorem frame?_rebind (frames : Frames) (id other : FrameId) (change : Bindings → Bindings) :
    (frames.rebind id change).frame? other =
      if other = id then
        (frames.frame? id).map fun frame => ⟨change frame.bindings, frame.outer⟩
      else frames.frame? other := by
  by_cases h : other = id
  · subst h; simp [rebind, frame?, Array.getElem?_modify]
  · simp [rebind, frame?, Array.getElem?_modify, h, Ne.symm h]

/-- New bindings leave all frames where they are. -/
theorem outer?_rebind (frames : Frames) (id other : FrameId) (change : Bindings → Bindings) :
    (frames.rebind id change).outer? other = frames.outer? other := by
  simp only [outer?, frame?_rebind]
  split
  · next h => subst h; cases frames.frame? other <;> rfl
  · rfl

/-- What a frame binds after a name was written in some frame. -/
theorem bindings_write (frames : Frames) (id other : FrameId) (name : String) (value : Value)
    (made : id < frames.size) :
    (frames.write id name value).bindings other =
      if other = id then (frames.bindings id).write name value else frames.bindings other := by
  simp only [write, bindings, frame?_rebind]
  split
  · have there : frames.frame? id = some frames.toArray[id] := Array.getElem?_eq_getElem made
    simp [there]
  · rfl

/-- One frame's bindings in braces, names brief and values inspected. -/
def bindingsText (frames : Frames) (id : FrameId) : String :=
  let texts := (frames.bindings id).map fun (name, value) => name ++ ": " ++ value.inspect
  "\x7b" ++ ", ".intercalate texts ++ "\x7d"

/-- A frame by itself, with a sign that there is another one outside. -/
def brief (frames : Frames) (id : FrameId) : String :=
  frames.bindingsText id ++ if (frames.outer? id).isSome then " -> ..." else ""

/-- A frame and all frames outside it. -/
def inspect (frames : Frames) (id : FrameId) : String :=
  "<Environment chain: " ++ " -> ".intercalate ((frames.outward id).map frames.bindingsText) ++
    ">"

end Frames

end DecimalLisp
