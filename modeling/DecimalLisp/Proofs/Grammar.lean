import DecimalLisp.Reader
import Mathlib.Data.List.Infix
import Mathlib.Data.List.Forall2

/-!
# Grammar of expressions

An expression is a token that is no parenthesis, or expressions between an opening parenthesis and a
closing one. Tokens begin with one expression at most. The reader takes it, whatever follows, and
makes the tree of what its atoms stand for. Where tokens do not begin with an expression, they begin
with a closing parenthesis, or an atom that stands for nothing comes before an expression is
complete, or they end too early. These are all the cases, no two of them meet, and in each of them
it is certain which tokens are left.
-/

namespace DecimalLisp.Reader

/-! ## Expressions -/

/-- A token that is no parenthesis. -/
def IsAtom (token : String) : Prop :=
  token ≠ "(" ∧ token ≠ ")"

/-- The grammar of expressions. -/
inductive IsExpression : List String → Prop where
  | atom {token} : IsAtom token → IsExpression [token]
  | list {parts : List (List String)} : (∀ part ∈ parts, IsExpression part) →
      IsExpression ("(" :: (parts.flatten ++ [")"]))

/-- All atoms among tokens stand for something. -/
def AllStand (tokens : List String) : Prop :=
  ∀ token ∈ tokens, IsAtom token → ∃ v, Reader.atom token = .ok v

/-- The tokens of an expression and its tree, in which the atoms are replaced by what they stand
for. -/
inductive Means : List String → Value → Prop where
  | atom {token v} : IsAtom token → Reader.atom token = .ok v → Means [token] v
  | list {parts vs} : List.Forall₂ Means parts vs →
      Means ("(" :: (parts.flatten ++ [")"])) (.list vs)

/-- Induction on an expression with its tree: what holds of the parts of a list may be used for
it. -/
theorem Means.parts_induction {motive : ∀ w v, Means w v → Prop}
    (atom : ∀ {token v} (apart : IsAtom token) (stands : Reader.atom token = .ok v),
      motive _ _ (.atom apart stands))
    (list : ∀ {parts vs} (means : List.Forall₂ Means parts vs),
      List.Forall₂ (fun w v => ∃ h, motive w v h) parts vs → motive _ _ (.list means))
    {w : List String} {v : Value} (h : Means w v) : motive w v h :=
  @Means.rec motive (fun parts vs _ => List.Forall₂ (fun w v => ∃ h, motive w v h) parts vs)
    atom list .nil (fun first _ hf hr => .cons ⟨first, hf⟩ hr) w v h

section Expressions

variable {w w' rest rest' : List String}

theorem AllStand.append {tokens tokens' : List String} :
    AllStand (tokens ++ tokens') ↔ AllStand tokens ∧ AllStand tokens' :=
  List.forall_mem_append

/-- A parenthesis stands for nothing, and need not. -/
theorem allStand_parenthesis {token : String} (h : ¬ IsAtom token) : AllStand [token] := by
  intro t mem apart
  rw [List.mem_singleton.mp mem] at apart
  exact absurd apart h

/-- An expression does not begin with a closing parenthesis. -/
theorem IsExpression.ne_close (h : IsExpression w) : w ++ rest ≠ ")" :: rest' := by
  intro same
  cases h with
  | atom apart => exact apart.2 (List.cons.inj same).1
  | list _ => exact absurd (List.cons.inj same).1 (by decide)

/-- An expression that tokens begin with is the only one. -/
def Alone (w : List String) : Prop :=
  ∀ w' rest rest', IsExpression w' → w ++ rest = w' ++ rest' → w = w'

/-- Up to a closing parenthesis tokens are expressions in one way only, if each of these is alone. -/
theorem parts_eq {parts parts' : List (List String)} (expressions : ∀ p ∈ parts, IsExpression p)
    (expressions' : ∀ p ∈ parts', IsExpression p) (alone : ∀ p ∈ parts, Alone p)
    (same : parts.flatten ++ ")" :: rest = parts'.flatten ++ ")" :: rest') : parts = parts' := by
  induction parts generalizing parts' with
  | nil =>
    cases parts' with
    | nil => rfl
    | cons part' others' =>
      rw [List.flatten_cons, List.append_assoc] at same
      exact absurd same.symm (expressions' part' List.mem_cons_self).ne_close
  | cons part others ih =>
    obtain ⟨first, more⟩ := List.forall_mem_cons.mp expressions
    obtain ⟨lone, loners⟩ := List.forall_mem_cons.mp alone
    rw [List.flatten_cons, List.append_assoc] at same
    cases parts' with
    | nil => exact absurd same first.ne_close
    | cons part' others' =>
      obtain ⟨first', more'⟩ := List.forall_mem_cons.mp expressions'
      rw [List.flatten_cons, List.append_assoc] at same
      obtain rfl := lone _ _ _ first' same
      rw [ih more more' loners (List.append_cancel_left same)]

/-- Tokens begin with one expression at most. -/
theorem IsExpression.alone (h : IsExpression w) : Alone w := by
  induction h with
  | atom apart =>
    intro w' rest rest' h' same
    cases h' with
    | atom _ => rw [(List.cons.inj same).1]
    | list _ => exact absurd (List.cons.inj same).1 apart.1
  | list expressions ih =>
    intro w' rest rest' h' same
    cases h' with
    | atom apart => exact absurd (List.cons.inj same).1.symm apart.1
    | list expressions' =>
      simp only [List.cons_append, List.append_assoc, List.nil_append, List.cons.injEq,
        true_and] at same
      rw [parts_eq expressions expressions' ih same]

end Expressions

/-! ## Reading -/

/-- Goes on with a value that has been read: it goes into the innermost list that is open, and
it is the expression itself if no list is open. -/
def deliver : List (List Value) → Value → List String → Reading
  | [], value, rest => ⟨.ok value, rest⟩
  | items :: others, value, rest => readInside ((value :: items) :: others) rest

theorem readInside_open (opened : List (List Value)) (rest : List String) :
    readInside opened ("(" :: rest) = readInside ([] :: opened) rest :=
  if_pos rfl

theorem readInside_close (items : List Value) (opened : List (List Value)) (rest : List String) :
    readInside (items :: opened) (")" :: rest) = deliver opened (.list items.reverse) rest := by
  refine (if_neg (by decide)).trans ((if_pos rfl).trans ?_)
  cases opened <;> rfl

/-- An atom is delivered as what it stands for. -/
theorem readInside_atom {token : String} (apart : IsAtom token) {value : Value}
    (h : atom token = .ok value) (opened : List (List Value)) (rest : List String) :
    readInside opened (token :: rest) = deliver opened value rest := by
  obtain ⟨opening, closing⟩ := apart
  refine (if_neg opening).trans ((if_neg closing).trans ?_)
  rw [h]
  cases opened <;> rfl

/-- An atom that stands for nothing ends the reading. -/
theorem readInside_fault {token : String} (apart : IsAtom token) {fault : ReadFault}
    (h : atom token = .error fault) (opened : List (List Value)) (rest : List String) :
    readInside opened (token :: rest) = ⟨.error fault, rest⟩ := by
  obtain ⟨opening, closing⟩ := apart
  refine (if_neg opening).trans ((if_neg closing).trans ?_)
  rw [h]

/-- Tokens are read as a value, whatever lists are open and whatever comes after them. -/
def ReadAs (w : List String) (v : Value) : Prop :=
  ∀ opened rest, readInside opened (w ++ rest) = deliver opened v rest

/-- Parts that are read as values go into the innermost list one after the other. -/
theorem readInside_parts {parts : List (List String)} {vs : List Value}
    (h : List.Forall₂ ReadAs parts vs) (front : List Value) (opened : List (List Value))
    (rest : List String) : readInside (front :: opened) (parts.flatten ++ rest) =
      readInside ((vs.reverse ++ front) :: opened) rest := by
  induction h generalizing front with
  | nil => rfl
  | cons first _ ih =>
    rw [List.flatten_cons, List.append_assoc, first, deliver, ih]
    simp

/-- The tokens of an expression whose atoms stand for something are read as its tree. -/
theorem Means.readAs {w : List String} {v : Value} (h : Means w v) : ReadAs w v := by
  induction h using Means.parts_induction with
  | atom apart stands => exact readInside_atom apart stands
  | list _ ih =>
    intro opened rest
    rw [List.cons_append, List.append_assoc, List.singleton_append, readInside_open,
      readInside_parts (ih.imp fun _ _ h => h.2), List.append_nil, readInside_close,
      List.reverse_reverse]

/-- An expression has a tree if and only if all its atoms stand for something. -/
theorem means_iff {w : List String} : (∃ v, Means w v) ↔ IsExpression w ∧ AllStand w := by
  constructor
  · rintro ⟨v, h⟩
    induction h using Means.parts_induction with
    | @atom token v apart stands =>
      refine ⟨.atom apart, fun t mem _ => ?_⟩
      rw [List.mem_singleton.mp mem]
      exact ⟨v, stands⟩
    | @list parts vs _ ih =>
      have each : ∀ part ∈ parts, IsExpression part ∧ AllStand part := by
        clear * - ih
        induction ih with
        | nil => nofun
        | cons first _ more => exact List.forall_mem_cons.mpr ⟨first.2, more⟩
      refine ⟨.list fun part mem => (each part mem).1, fun token mem apart => ?_⟩
      rw [List.mem_cons, List.mem_append, List.mem_singleton] at mem
      rcases mem with rfl | inside | rfl
      · exact absurd rfl apart.1
      · obtain ⟨part, among, mem⟩ := List.mem_flatten.mp inside
        exact (each part among).2 token mem apart
      · exact absurd rfl apart.2
  · rintro ⟨expression, stand⟩
    induction expression with
    | atom apart =>
      obtain ⟨v, stands⟩ := stand _ List.mem_cons_self apart
      exact ⟨v, .atom apart stands⟩
    | @list parts _ ih =>
      have each : ∀ part ∈ parts, ∃ v, Means part v := fun part among =>
        ih part among fun token mem => stand token
          (List.mem_cons_of_mem _ (List.mem_append_left _ (List.mem_flatten.mpr ⟨part, among, mem⟩)))
      have all : ∃ vs, List.Forall₂ Means parts vs := by
        clear * - each
        induction parts with
        | nil => exact ⟨[], .nil⟩
        | cons part others more =>
          obtain ⟨⟨v, first⟩, rest⟩ := List.forall_mem_cons.mp each
          obtain ⟨vs, means⟩ := more rest
          exact ⟨v :: vs, .cons first means⟩
      obtain ⟨vs, means⟩ := all
      exact ⟨.list vs, .list means⟩

/-! ## Lists that are open -/

/-- The tokens that have been taken when lists are open: for each list, the outermost first, its
opening parenthesis and the tokens of its items. -/
inductive Opens : List (List Value) → List String → Prop where
  | none : Opens [] []
  | list {opened before parts items} : Opens opened before → List.Forall₂ Means parts items →
      Opens (items.reverse :: opened) (before ++ "(" :: parts.flatten)

section Opens

variable {items : List Value} {opened : List (List Value)} {before w : List String} {v : Value}

/-- An expression goes into the innermost list. -/
theorem Opens.item (h : Opens (items :: opened) before) (means : Means w v) :
    Opens ((v :: items) :: opened) (before ++ w) := by
  cases h with
  | @list _ before parts items outer inside =>
    have longer := Opens.list outer (List.rel_append inside (.cons means .nil))
    simpa using longer

/-- The innermost list is an expression once it is closed. -/
theorem Opens.close (h : Opens (items :: opened) before) :
    ∃ outer w, before ++ [")"] = outer ++ w ∧ Opens opened outer ∧
      Means w (.list items.reverse) := by
  cases h with
  | @list _ outer parts items outside inside =>
    refine ⟨outer, _, ?_, outside, .list ((List.reverse_reverse items).symm ▸ inside)⟩
    simp

/-- Nothing has been taken, or an opening parenthesis was the first token. -/
theorem Opens.first (h : Opens opened before) :
    opened = [] ∧ before = [] ∨ ∃ more, before = "(" :: more := by
  induction h with
  | none => exact .inl ⟨rfl, rfl⟩
  | list _ _ ih =>
    rcases ih with ⟨-, rfl⟩ | ⟨more, rfl⟩
    · exact .inr ⟨_, rfl⟩
    · exact .inr ⟨_, rfl⟩

/-- All atoms that have been taken stand for something. -/
theorem Opens.allStand (h : Opens opened before) : AllStand before := by
  induction h with
  | none => exact nofun
  | @list _ _ parts items _ inside ih =>
    have stand : AllStand parts.flatten := by
      induction inside with
      | nil => exact nofun
      | cons first _ more => exact AllStand.append.mpr ⟨(means_iff.mp ⟨_, first⟩).2, more⟩
    have opening : AllStand ["("] := allStand_parenthesis fun apart => apart.1 rfl
    exact AllStand.append.mpr ⟨ih, AllStand.append.mpr ⟨opening, stand⟩⟩

/-- Reading has come to where these lists are open. -/
theorem Opens.read (h : Opens opened before) (rest : List String) :
    Reader.read (before ++ rest) = readInside opened rest := by
  induction h generalizing rest with
  | none => rfl
  | list _ inside ih =>
    rw [List.append_assoc, ih, List.cons_append, readInside_open,
      readInside_parts (inside.imp fun _ _ means => means.readAs), List.append_nil]

end Opens

/-! ## Courses of reading -/

/-- What tokens begin with. -/
inductive Start where
  /-- An expression. -/
  | expression
  /-- A closing parenthesis. -/
  | closing
  /-- An atom that stands for nothing, before an expression is complete. -/
  | fault
  /-- Nothing that is ever complete. -/
  | unended
deriving DecidableEq

/-- What tokens begin with, and what is to be read from them. -/
inductive Course (tokens : List String) : Start → Reading → Prop where
  /-- The tree of the expression. What comes after it is left. -/
  | expression {w rest v} : tokens = w ++ rest → IsExpression w → AllStand w → Means w v →
      Course tokens .expression ⟨.ok v, rest⟩
  /-- A fault. What comes after the parenthesis is left. -/
  | closing {rest} : tokens = ")" :: rest →
      Course tokens .closing ⟨.error .unexpectedClose, rest⟩
  /-- The fault of the first atom that stands for nothing. What comes after it is left. -/
  | fault {before token rest cause} : tokens = before ++ token :: rest → IsAtom token →
      atom token = .error cause → AllStand before →
      (∀ w, IsExpression w → ¬ w <+: before) → tokens.head? ≠ some ")" →
      Course tokens .fault ⟨.error cause, rest⟩
  /-- A fault. No token is left. -/
  | unended : tokens = [] ∨ tokens.head? = some "(" → AllStand tokens →
      (∀ w, IsExpression w → ¬ w <+: tokens) →
      Course tokens .unended ⟨.error .unexpectedEnd, []⟩

/-- What tokens have begun with that were read with this result. -/
def Reading.start (reading : Reading) : Start :=
  match reading.result with
  | .ok _ => .expression
  | .error .unexpectedClose => .closing
  | .error .unexpectedEnd => .unended
  | .error _ => .fault

section Courses

variable {tokens before w rest rest' : List String} {start : Start} {reading : Reading}

/-- An atom stands for nothing only if no number has its value, or the number is out of range. -/
theorem cause_of_atom {token : String} {cause : ReadFault} (h : atom token = .error cause) :
    cause = .unrepresentable token ∨ cause = .outOfRange token := by
  unfold atom at h
  split at h
  · cases h
  · dsimp only at h
    split at h
    · cases h
      exact .inl rfl
    · split at h <;> cases h
      exact .inr rfl

/-- What goes wrong with an atom goes wrong nowhere else. -/
theorem start_of_atom {token : String} {cause : ReadFault} (h : atom token = .error cause)
    (rest : List String) : Reading.start ⟨.error cause, rest⟩ = .fault := by
  rcases cause_of_atom h with rfl | rfl <;> rfl

theorem Course.start_eq (h : Course tokens start reading) : reading.start = start := by
  cases h with
  | fault _ _ stands _ _ _ => exact start_of_atom stands _
  | _ => rfl

/-- Where reading fails, no expression was complete before. -/
theorem none_complete (stand : AllStand before) {cause : ReadFault}
    (failed : (read (before ++ rest)).result = .error cause) :
    ∀ w, IsExpression w → ¬ w <+: before := by
  rintro w expression ⟨more, rfl⟩
  obtain ⟨v, means⟩ := means_iff.mpr ⟨expression, (AllStand.append.mp stand).1⟩
  rw [List.append_assoc, read, means.readAs] at failed
  cases failed

/-- Wherever reading has come to, it goes on by one of the courses. -/
theorem Opens.course {opened : List (List Value)} (h : Opens opened before) :
    ∃ start, Course (before ++ rest) start (readInside opened rest) := by
  induction rest generalizing opened before with
  | nil =>
    have failed : (Reader.read (before ++ [])).result = .error .unexpectedEnd := by rw [h.read]; rfl
    rw [List.append_nil]
    refine ⟨_, .unended ?_ h.allStand (none_complete h.allStand failed)⟩
    rcases h.first with ⟨-, none⟩ | ⟨more, rfl⟩
    · exact .inl none
    · exact .inr rfl
  | cons token rest ih =>
    -- An expression that has just become complete is all, or goes into the innermost list.
    have delivered : ∀ {opened before w v}, Opens opened before → Means w v →
        ∃ start, Course (before ++ (w ++ rest)) start (deliver opened v rest) := by
      intro opened before w v h means
      cases opened with
      | nil =>
        cases h
        obtain ⟨expression, stand⟩ := means_iff.mp ⟨v, means⟩
        exact ⟨_, .expression rfl expression stand means⟩
      | cons items others =>
        rw [← List.append_assoc]
        exact ih (h.item means)
    by_cases opening : token = "("
    · subst opening
      rw [readInside_open]
      have longer := ih (Opens.list h .nil)
      simpa using longer
    by_cases closing : token = ")"
    · subst closing
      cases opened with
      | nil =>
        cases h
        exact ⟨_, .closing rfl⟩
      | cons items others =>
        obtain ⟨outer, w, same, outside, means⟩ := h.close
        have same : before ++ ")" :: rest = outer ++ (w ++ rest) := by
          rw [List.append_cons, same, List.append_assoc]
        rw [readInside_close, same]
        exact delivered outside means
    have apart : IsAtom token := ⟨opening, closing⟩
    cases stands : atom token with
    | ok v =>
      rw [readInside_atom apart stands]
      exact delivered h (.atom apart stands)
    | error cause =>
      have failed : (Reader.read (before ++ token :: rest)).result = .error cause := by
        rw [h.read, readInside_fault apart stands]
      rw [readInside_fault apart stands]
      refine ⟨_, .fault rfl apart stands h.allStand (none_complete h.allStand failed) ?_⟩
      rcases h.first with ⟨-, rfl⟩ | ⟨more, rfl⟩
      · simpa using closing
      · simp

/-- Reading takes one of the courses. -/
theorem exists_course (tokens : List String) : ∃ start, Course tokens start (read tokens) :=
  Opens.none.course

/-- What goes wrong in reading a text goes wrong with the parentheses or with an atom. -/
theorem cause_of_parse {text : String} {cause : ReadFault} (h : parse text = .error cause) :
    cause = .unexpectedClose ∨ cause = .unexpectedEnd ∨
      ∃ token ∈ Token.ofText text, IsAtom token ∧ atom token = .error cause := by
  obtain ⟨start, course⟩ := exists_course (Token.ofText text)
  rw [parse] at h
  generalize read (Token.ofText text) = reading at h course
  cases course with
  | expression => cases h
  | closing =>
    cases h
    exact .inl rfl
  | fault same apart fault _ _ _ =>
    cases h
    exact .inr (.inr ⟨_, by simp [same], apart, fault⟩)
  | unended =>
    cases h
    exact .inr (.inl rfl)

/-- An atom that stands for nothing is not among atoms that all stand for something. -/
theorem not_allStand {token : String} {cause : ReadFault} (apart : IsAtom token)
    (fault : atom token = .error cause) : ¬ AllStand (before ++ token :: rest) := by
  intro stand
  obtain ⟨v, stands⟩ := stand token (List.mem_append_right _ List.mem_cons_self) apart
  rw [fault] at stands
  cases stands

/-- Tokens all of whose atoms stand for something come before the first atom that does not. -/
theorem prefix_of_allStand {token : String} {cause : ReadFault}
    (same : before ++ token :: rest = w ++ rest') (apart : IsAtom token)
    (fault : atom token = .error cause) (stand : AllStand w) : w <+: before := by
  rcases List.append_eq_append_iff.mp same with ⟨between, rfl, later⟩ | ⟨between, rfl, -⟩
  · cases between with
    | nil => simp
    | cons first more =>
      obtain ⟨rfl, -⟩ := List.cons.inj later
      exact absurd stand (not_allStand apart fault)
  · exact List.prefix_append w between

/-- What a course gives is what is read. -/
theorem Course.read_eq (h : Course tokens start reading) : read tokens = reading := by
  obtain ⟨taken, course⟩ := exists_course tokens
  cases h with
  | expression same _ _ means => exact same ▸ means.readAs [] _
  | closing same => exact same ▸ rfl
  | @fault before token rest cause same apart fault stand none unclosed =>
    generalize read tokens = reading at course ⊢
    cases course with
    | expression same' expression stand' _ =>
      exact absurd (prefix_of_allStand (same.symm.trans same') apart fault stand') (none _ expression)
    | closing same' => exact absurd (congrArg List.head? same') unclosed
    | @fault before' token' rest' cause' same' apart' fault' stand' _ _ =>
      have first := prefix_of_allStand (same.symm.trans same') apart fault stand'
      have first' := prefix_of_allStand (same'.symm.trans same) apart' fault' stand
      obtain rfl := first.eq_of_length (le_antisymm first.length_le first'.length_le)
      obtain ⟨rfl, rfl⟩ := List.cons.inj (List.append_cancel_left (same.symm.trans same'))
      rw [Except.error.inj (fault.symm.trans fault')]
    | unended _ all _ => exact absurd (same ▸ all) (not_allStand apart fault)
  | unended begun all none =>
    generalize read tokens = reading at course ⊢
    cases course with
    | @expression w rest _ same expression _ _ => exact absurd ⟨rest, same.symm⟩ (none w expression)
    | closing same =>
      subst same
      rcases begun with empty | opening
      · cases empty
      · exact absurd opening (by simp)
    | fault same apart fault _ _ _ => exact absurd (same ▸ all) (not_allStand apart fault)
    | unended _ _ _ => rfl

end Courses

/-- Every sequence of tokens begins with one thing, and that determines what is read from it and
what is left: an expression whose atoms all stand for something, a closing parenthesis, an atom that
stands for nothing, or nothing that is ever complete. Tokens begin with one expression at most, and
an expression has one tree if its atoms stand for something, and none otherwise. -/
theorem read_by_grammar (tokens : List String) :
    (∃! start, ∃ reading, Course tokens start reading) ∧
    (∀ start reading, Course tokens start reading → read tokens = reading) ∧
    (∀ w w', IsExpression w → IsExpression w' → w <+: tokens → w' <+: tokens → w = w') ∧
    (∀ w, IsExpression w → AllStand w → ∃! v, Means w v) ∧
    (∀ w v, Means w v → IsExpression w ∧ AllStand w) ∧
    (ReadFault.unexpectedClose.message = "unexpected )" ∧
      ReadFault.unexpectedClose.kind = .malformed) ∧
    ReadFault.unexpectedEnd.message = "unexpected EOF while reading" ∧
    ReadFault.unexpectedEnd.kind = .malformed := by
  refine ⟨?_, fun _ _ => Course.read_eq, ?_, ?_, fun w v means => means_iff.mp ⟨v, means⟩,
    ⟨rfl, rfl⟩, rfl, rfl⟩
  · obtain ⟨start, course⟩ := exists_course tokens
    refine ⟨start, ⟨_, course⟩, ?_⟩
    rintro start' ⟨reading, course'⟩
    rw [← course.start_eq, ← course'.start_eq, course'.read_eq]
  · rintro w w' expression expression' ⟨rest, rfl⟩ ⟨rest', same⟩
    exact expression.alone w' rest rest' expression' same.symm
  · intro w expression stand
    obtain ⟨v, means⟩ := means_iff.mpr ⟨expression, stand⟩
    refine ⟨v, means, fun v' means' => ?_⟩
    have same : deliver [] v' [] = deliver [] v [] :=
      (means'.readAs [] []).symm.trans (means.readAs [] [])
    exact Except.ok.inj (congrArg Reading.result same)

-- The list is never closed, but an atom in it fails before the tokens end.
example : read ["(", "a", "1e1000000", "b"] = ⟨.error (.outOfRange "1e1000000"), ["b"]⟩ := rfl

end DecimalLisp.Reader
