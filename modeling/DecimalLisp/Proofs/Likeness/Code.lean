import DecimalLisp.Proofs.Likeness.Basic

/-!
# Like code

What a step asks of a piece of code has the same answer for like pieces: whether it is the empty
list or a symbol, how many parts a form has, which parameter is none. What is read from a text is
a tree of numbers and symbols. It is like itself when no hidden name is asked for in it, and like
every tree that differs from it in the forms of numbers only.
-/

namespace DecimalLisp

/-! ## Parts of like code -/

namespace Likeness

variable {r : Likeness}

/-- Like code is the empty list in both runs or in neither. -/
theorem Code.empty_iff {v w : Value} (h : r.Code v w) : v = .list [] ↔ w = .list [] := by
  cases h with
  | number _ | symbol _ | form _ _ => simp
  | list parts => cases parts <;> simp

/-- What is quoted is the empty list in both runs or in neither. -/
theorem quoted_empty_iff {vs ws : List Value} (parts : List.Forall₂ r.Code vs ws) :
    vs = [.list []] ↔ ws = [.list []] := by
  cases parts with
  | nil => simp
  | cons first rest => cases rest <;> simp [first.empty_iff]

/-- Like code is the same symbol, or none in either run. -/
theorem Code.symbolName?_eq {v w : Value} (h : r.Code v w) : v.symbolName? = w.symbolName? := by
  cases h <;> rfl

theorem Code.eq_symbol_iff {v w : Value} (h : r.Code v w) (name : String) :
    v = .symbol name ↔ w = .symbol name := by
  cases h <;> simp

/-- A value that names a symbol is the symbol. -/
theorem eq_symbol_of_symbolName? {v : Value} {name : String} (h : v.symbolName? = some name) :
    v = .symbol name := by
  cases v <;> cases h
  rfl

/-- Parameters of like procedures are the same symbols, or like code stands among them first. -/
theorem firstNonSymbol? {formals formals' : List Value}
    (parts : List.Forall₂ r.Code formals formals') :
    (∃ names : List String, formals = names.map .symbol ∧ formals' = names.map .symbol) ∨
      ∃ v w, SpecialForm.firstNonSymbol? formals = some v ∧
        SpecialForm.firstNonSymbol? formals' = some w ∧ r.Code v w := by
  induction parts with
  | nil => exact .inl ⟨[], rfl, rfl⟩
  | @cons v w vs ws first _ ih =>
    cases name : v.symbolName? with
    | none =>
      refine .inr ⟨v, w, ?_, ?_, first⟩
      · rw [SpecialForm.firstNonSymbol?, List.find?_cons, name]
        rfl
      · rw [SpecialForm.firstNonSymbol?, List.find?_cons, ← first.symbolName?_eq, name]
        rfl
    | some word =>
      have hv := eq_symbol_of_symbolName? name
      have hw := eq_symbol_of_symbolName? (first.symbolName?_eq.symm.trans name)
      subst hv hw
      rcases ih with ⟨names, rfl, rfl⟩ | ⟨v, w, hv, hw, code⟩
      · exact .inl ⟨word :: names, rfl, rfl⟩
      · exact .inr ⟨v, w, hv, hw, code⟩

/-- Like lists in code have like items, and a word of a form may stand before the others. -/
theorem Code.list_cases {vs : List Value} {w : Value} (h : r.Code (.list vs) w) :
    ∃ ws, w = .list ws ∧
      (List.Forall₂ r.Code vs ws ∨ ∃ (form : SpecialForm) (vs' ws' : List Value),
        vs = .symbol form.name :: vs' ∧ ws = .symbol form.name :: ws' ∧
          List.Forall₂ r.Code vs' ws') := by
  cases h with
  | list parts => exact ⟨_, rfl, .inl parts⟩
  | form form parts => exact ⟨_, rfl, .inr ⟨form, _, _, rfl, rfl, parts⟩⟩

/-- No parameter that is a symbol is found to be none. -/
theorem firstNonSymbol?_symbols (names : List String) :
    SpecialForm.firstNonSymbol? (names.map .symbol) = none := by
  rw [SpecialForm.firstNonSymbol?, List.find?_eq_none]
  intro v hv
  obtain ⟨name, -, rfl⟩ := List.mem_map.mp hv
  exact Bool.false_ne_true

/-- The parameters of like `lambda` forms. -/
theorem Code.formals {formals : List Value} {w : Value} (h : r.Code (.list formals) w) :
    ∃ formals', w = .list formals' ∧
      ((∃ names : List String, formals = names.map .symbol ∧ formals' = names.map .symbol) ∨
        ∃ v w, SpecialForm.firstNonSymbol? formals = some v ∧
          SpecialForm.firstNonSymbol? formals' = some w ∧ r.Code v w) := by
  obtain ⟨ws, rfl, parts | ⟨form, vs', ws', rfl, rfl, parts⟩⟩ := h.list_cases
  · exact ⟨ws, rfl, firstNonSymbol? parts⟩
  · refine ⟨_, rfl, ?_⟩
    rcases firstNonSymbol? parts with ⟨names, rfl, rfl⟩ | ⟨v, w, hv, hw, code⟩
    · exact .inl ⟨form.name :: names, rfl, rfl⟩
    · exact .inr ⟨v, w, hv, hw, code⟩

/-- Definitions and assignments have like parts: too few or too many, or no symbol first, or the
same symbol and like expressions. -/
theorem name_cases {parts parts' : List Value} (codes : List.Forall₂ r.Code parts parts') :
    (parts.length ≠ 2 ∧ parts'.length ≠ 2) ∨
      (∃ v w e e', parts = [v, e] ∧ parts' = [w, e'] ∧ r.Code v w ∧ v.symbolName? = none ∧
        w.symbolName? = none) ∨
      ∃ name e e', parts = [.symbol name, e] ∧ parts' = [.symbol name, e'] ∧ r.Code e e' := by
  by_cases count : parts.length = 2
  · obtain ⟨v, e, rfl⟩ := List.length_eq_two.mp count
    obtain ⟨w, e', rfl⟩ := List.length_eq_two.mp (codes.length_eq.symm.trans count)
    obtain ⟨first, second⟩ := by simpa using codes
    cases name : v.symbolName? with
    | none => exact .inr (.inl ⟨v, w, e, e', rfl, rfl, first, name,
        first.symbolName?_eq.symm.trans name⟩)
    | some word =>
      rw [eq_symbol_of_symbolName? name,
        eq_symbol_of_symbolName? (first.symbolName?_eq.symm.trans name)]
      exact .inr (.inr ⟨word, e, e', rfl, rfl, second⟩)
  · exact .inl ⟨count, codes.length_eq ▸ count⟩

end Likeness

/-! ## Trees that are read -/

namespace Value

/-- Trees of numbers and symbols. -/
inductive Plain : Value → Prop where
  | number (x) : Plain (.number x)
  | symbol (name) : Plain (.symbol name)
  | list {items} : (∀ v ∈ items, Plain v) → Plain (.list items)

/-- A name stands somewhere in a tree. -/
inductive Mentions (name : String) : Value → Prop where
  | symbol : Mentions name (.symbol name)
  | item {v items} : v ∈ items → Mentions name v → Mentions name (.list items)

/-- A name stands somewhere in a tree where it is not the first item of a list. -/
inductive MentionsElsewhere (name : String) : Value → Prop where
  | symbol : MentionsElsewhere name (.symbol name)
  | first {v items} : v ≠ .symbol name → MentionsElsewhere name v →
      MentionsElsewhere name (.list (v :: items))
  | item {v head items} : v ∈ items → MentionsElsewhere name v →
      MentionsElsewhere name (.list (head :: items))

/-- A name stands somewhere in a tree where it is not the word of a form. -/
inductive AsksFor (name : String) : Value → Prop where
  | symbol : AsksFor name (.symbol name)
  | first {v items} : (∀ form : SpecialForm, v ≠ .symbol form.name) → AsksFor name v →
      AsksFor name (.list (v :: items))
  | item {v head items} : v ∈ items → AsksFor name v → AsksFor name (.list (head :: items))

@[simp] theorem mentions_symbol {name word : String} :
    (Value.symbol word).Mentions name ↔ word = name := by
  constructor
  · intro h
    cases h
    rfl
  · rintro rfl
    exact .symbol

@[simp] theorem mentions_list {name : String} {items : List Value} :
    (Value.list items).Mentions name ↔ ∃ v ∈ items, v.Mentions name := by
  constructor
  · intro h
    cases h with
    | item mem inside => exact ⟨_, mem, inside⟩
  · rintro ⟨v, mem, inside⟩
    exact .item mem inside

@[simp] theorem not_mentions_number {name : String} {x : Decimal} :
    ¬ (Value.number x).Mentions name := nofun

@[simp] theorem mentionsElsewhere_symbol {name word : String} :
    (Value.symbol word).MentionsElsewhere name ↔ word = name := by
  constructor
  · intro h
    cases h
    rfl
  · rintro rfl
    exact .symbol

@[simp] theorem mentionsElsewhere_cons {name : String} {head : Value} {items : List Value} :
    (Value.list (head :: items)).MentionsElsewhere name ↔
      head ≠ .symbol name ∧ head.MentionsElsewhere name ∨
        ∃ v ∈ items, v.MentionsElsewhere name := by
  constructor
  · intro h
    cases h with
    | first other inside => exact .inl ⟨other, inside⟩
    | item mem inside => exact .inr ⟨_, mem, inside⟩
  · rintro (⟨other, inside⟩ | ⟨v, mem, inside⟩)
    · exact .first other inside
    · exact .item mem inside

@[simp] theorem not_mentionsElsewhere_nil {name : String} :
    ¬ (Value.list []).MentionsElsewhere name := nofun

@[simp] theorem not_mentionsElsewhere_number {name : String} {x : Decimal} :
    ¬ (Value.number x).MentionsElsewhere name := nofun

theorem AsksFor.mentions {name : String} {v : Value} (h : v.AsksFor name) : v.Mentions name := by
  induction h with
  | symbol => exact .symbol
  | first _ _ ih => exact .item List.mem_cons_self ih
  | item mem _ ih => exact .item (List.mem_cons_of_mem _ mem) ih

theorem AsksFor.mentionsElsewhere {form : SpecialForm} {v : Value} (h : v.AsksFor form.name) :
    v.MentionsElsewhere form.name := by
  induction h with
  | symbol => exact .symbol
  | first word _ ih => exact .first (word form) ih
  | item mem _ ih => exact .item mem ih

end Value

/-- A tree of numbers and symbols is the same tree as itself. -/
theorem Value.Plain.sameTree {v : Value} (h : v.Plain) : v.SameTree v := by
  induction h with
  | number x => exact .number rfl rfl rfl
  | symbol name => exact .symbol name
  | list _ ih => exact .list (List.forall₂_same.mpr ih)

open Value Token Reader

/-- What a word stands for is a number or a symbol. -/
theorem plain_of_atom {token : String} {v : Value} (h : atom token = .ok v) : v.Plain := by
  rw [atom] at h
  split at h
  · cases h
    exact .symbol _
  · dsimp only at h
    split at h
    · cases h
    · split at h
      · cases h
      · cases h
        exact .number _

/-- What is read from a text is a tree of numbers and symbols. -/
theorem plain_of_parse {text : String} {v : Value} (h : parse text = .ok v) : v.Plain := by
  have items : ∀ values ∈ ([] : List (List Value)), ∀ v ∈ values, v.Plain := nofun
  exact of_readInside (fun _ _ => plain_of_atom) .list (fun _ => valid_of_mem_ofText) items h

namespace Likeness

variable {r : Likeness}

/-- Code that asks for no hidden name is like itself. -/
theorem code_self (literal : ∀ x, r.literal x x) {v : Value} (plain : v.Plain)
    (shown : ∀ name, r.hidden name = true → ¬ v.AsksFor name) : r.Code v v := by
  induction plain with
  | number x => exact .number (literal x)
  | symbol name => exact .symbol (Bool.eq_false_iff.mpr fun h => shown name h .symbol)
  | @list items _ ih =>
    cases items with
    | nil => exact .list .nil
    | cons head rest =>
      have others : List.Forall₂ r.Code rest rest := List.forall₂_same.mpr fun v hv =>
        ih v (List.mem_cons_of_mem head hv) fun name h asked => shown name h (.item hv asked)
      by_cases word : ∃ form : SpecialForm, head = .symbol form.name
      · obtain ⟨form, rfl⟩ := word
        exact .form form others
      · refine .list (.cons (ih head List.mem_cons_self fun name h asked => ?_) others)
        exact shown name h (.first (not_exists.mp word) asked)

/-- When nothing is hidden, like lists of code have like items. -/
theorem Code.items (shown : ∀ name, r.hidden name = false) {vs ws : List Value}
    (h : r.Code (.list vs) (.list ws)) : List.Forall₂ r.Code vs ws := by
  cases h with
  | list parts => exact parts
  | form form parts => exact .cons (.symbol (shown form.name)) parts

/-- Trees that differ in the forms of numbers only are like code, if nothing is hidden and the
forms of numbers in range are of no account. -/
theorem code_of_sameTree
    (literal : ∀ {x y : Decimal}, x.InRange → x.toRat = y.toRat → r.literal x y)
    (shown : ∀ name, r.hidden name = false) {v w : Value} (same : SameTree v w) (hv : v.Plain)
    (readable : v.Readable) (hw : w.Plain) : r.Code v w := by
  induction same with
  | number hx hy value =>
    cases hv with
    | number x =>
      cases hw with
      | number y =>
        cases readable with
        | number hx' range =>
          cases hx
          cases hy
          cases hx'
          exact .number (literal range value)
      | _ => cases hy
    | _ => cases hx
  | symbol name => exact .symbol (shown name)
  | nil => exact .list .nil
  | cons _ _ first rest =>
    cases hv with
    | list hv =>
      cases hw with
      | list hw =>
        cases readable with
        | number none _ => cases none
        | list readable =>
          obtain ⟨plain, plains⟩ := List.forall_mem_cons.mp hv
          obtain ⟨known, others⟩ := List.forall_mem_cons.mp readable
          obtain ⟨plain', plains'⟩ := List.forall_mem_cons.mp hw
          have others := rest (.list plains) (.list others) (.list plains')
          exact .list (.cons (first plain known plain') (others.items shown))

end Likeness

end DecimalLisp
