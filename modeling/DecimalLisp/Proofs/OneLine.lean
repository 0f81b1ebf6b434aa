import DecimalLisp.Proofs.Origin

/-!
# Texts on one line

Whatever stands in a text that was run, no message and no value that comes of it breaks a line when
it is shown. Names are words, and words have no blanks; where a message shows what a list is made
of, characters that would break the line are spelt.
-/

namespace DecimalLisp

namespace Text

/-- A text without a line feed. -/
def OneLine (text : String) : Prop :=
  '\n' ∉ text.toList

instance (text : String) : Decidable (OneLine text) :=
  inferInstanceAs (Decidable ('\n' ∉ text.toList))

theorem oneLine_append {text text' : String} :
    OneLine (text ++ text') ↔ OneLine text ∧ OneLine text' := by
  rw [OneLine, String.toList_append, List.mem_append, not_or, OneLine, OneLine]

/-- What is on one line stays so between others. -/
theorem OneLine.between {text before after : String} (h : OneLine text) (opening : OneLine before)
    (closing : OneLine after) : OneLine (before ++ text ++ after) :=
  oneLine_append.mpr ⟨oneLine_append.mpr ⟨opening, h⟩, closing⟩

theorem oneLine_ofList {text : List Char} : OneLine (String.ofList text) ↔ '\n' ∉ text := by
  rw [OneLine, String.toList_ofList]

theorem oneLine_intercalate {separator : String} {texts : List String} (apart : OneLine separator)
    (each : ∀ text ∈ texts, OneLine text) : OneLine (separator.intercalate texts) := by
  induction texts with
  | nil => exact List.not_mem_nil
  | cons text others ih =>
    obtain ⟨first, rest⟩ := List.forall_mem_cons.mp each
    cases others with
    | nil => rwa [String.intercalate_singleton]
    | cons next others =>
      rw [String.intercalate_cons_cons, oneLine_append, oneLine_append]
      exact ⟨⟨first, apart⟩, ih rest⟩

/-- Written numbers have no line feed in them. -/
theorem not_mem_toDigits {b : ℕ} (base : 1 < b) (n : ℕ) : '\n' ∉ Nat.toDigits b n := by
  induction n using Nat.strongRecOn with
  | _ n ih =>
    rw [Nat.toDigits_eq_if base]
    split
    · simp
    · have less : n / b < n := Nat.div_lt_self (by omega) base
      simpa using ih _ less

theorem oneLine_toString (n : ℕ) : OneLine (toString n) := by
  rw [Nat.toString_eq_ofList_toDigits, oneLine_ofList]
  exact not_mem_toDigits (by decide) n

/-- A line feed is spelt inside quotes. -/
theorem oneLine_quoted (text : String) : OneLine (quoted text) := by
  have mark : '\n' ≠ quoteMark text.toList := by
    unfold quoteMark
    split <;> decide
  have code : ∀ width n, '\n' ∉ hexadecimal width n := by
    intro width n
    rw [hexadecimal, List.mem_append, not_or]
    exact ⟨fun mem => absurd (List.eq_of_mem_replicate mem) (by decide),
      not_mem_toDigits (by decide) n⟩
  have inside : ∀ c, '\n' ∉ quotedChar (quoteMark text.toList) c := by
    intro c
    rcases eq_or_ne c '\n' with rfl | other
    · rw [quotedChar, if_neg, if_neg (by decide), if_pos rfl]
      · decide
      · rintro (same | same)
        · exact mark same
        · exact absurd same (by decide)
    · unfold quotedChar
      repeat' split
      all_goals simp [other.symm, code]
  rw [quoted, oneLine_ofList]
  simp [mark, inside]

end Text

open Text

namespace Decimal

theorem oneLine_plainText (x : Decimal) : OneLine (String.ofList x.plainText) := by
  rw [oneLine_ofList]
  intro mem
  rcases mem_plainText mem with digit | same | same
  · cases digit
  · cases same
  · cases same

theorem oneLine_exactText (x : Decimal) : OneLine (String.ofList x.exactText) := by
  have base : 1 < 10 := by decide
  have digits : '\n' ∉ x.digits := not_mem_toDigits base x.coeff
  have sign : '\n' ∉ x.signText := by
    unfold signText
    split <;> decide
  have positional : ∀ places, '\n' ∉ pointed x.digits places := by
    intro places
    by_cases whole : places = 0
    · rwa [pointed, if_pos whole]
    · obtain ⟨front, back, text, -, -, filled⟩ := pointed_eq x.digits whole
      have around : '\n' ∉ front ++ back := by
        rw [filled, List.mem_append, not_or]
        exact ⟨fun mem => absurd (List.eq_of_mem_replicate mem) (by decide), digits⟩
      rw [text]
      simpa using around
  have exponential : '\n' ∉ scientific x.digits x.adjusted := by
    have first : '\n' ∉ x.digits.take 1 := fun mem => digits (List.mem_of_mem_take mem)
    have others : '\n' ∉ x.digits.tail := fun mem => digits (List.mem_of_mem_tail mem)
    have exponent := not_mem_toDigits base x.adjusted.natAbs
    unfold scientific
    split <;> split <;> simp [first, others, exponent]
  rw [oneLine_ofList, exactText, List.mem_append, not_or]
  refine ⟨sign, ?_⟩
  split
  · exact positional _
  · exact exponential

end Decimal

/-! ## Values -/

/-- A word has no line feed in it. -/
theorem Token.IsWord.oneLine {word : String} (h : Token.IsWord word) : OneLine word :=
  fun mem => Token.not_inWord_of_blank (by decide) (h.inWord '\n' mem)

theorem Builtin.oneLine_name (b : Builtin) : OneLine b.name := by
  rcases b with (_ | _ | _ | _) | (_ | _ | _ | _ | _) | _ <;> decide

namespace Value

variable {codes : List String} {n : ℕ} {v w : Value}

theorem inspectAll_eq (vs : List Value) : inspectAll vs = vs.map inspect := by
  induction vs with
  | nil => rfl
  | cons v rest ih => rw [inspectAll, ih, List.map_cons]

theorem briefAll_eq (vs : List Value) : briefAll vs = vs.map brief := by
  induction vs with
  | nil => rfl
  | cons v rest ih => rw [briefAll, ih, List.map_cons]

theorem Within.readable (h : Within v w) (readable : w.Readable) : v.Readable := by
  induction h with
  | refl => exact readable
  | item mem _ ih =>
    cases readable with
    | number number _ => cases number
    | list each => exact ih (each _ mem)

/-- A name that is written is a word. -/
theorem WrittenIn.isWord {name : String} (h : (Value.symbol name).WrittenIn codes) :
    Token.IsWord name := by
  obtain ⟨code, -, tree, read, inside⟩ := h
  have items : ∀ values ∈ ([] : List (List Value)), ∀ v ∈ values, v.Readable := nofun
  have readable : tree.Readable :=
    Reader.readable_of_readInside (fun _ => Token.valid_of_mem_ofText) items read
  cases inside.readable readable with
  | number number _ => cases number
  | symbol word _ => exact word

/-- The texts of a value that may occur are on one line. -/
theorem Made.oneLine (h : v.Made codes n) :
    OneLine v.print ∧ OneLine v.brief ∧ OneLine v.inspect := by
  have procedure : OneLine procedureText := by decide
  have number : ∀ x : Decimal, OneLine ("Decimal('" ++ String.ofList x.exactText ++ "')") :=
    fun x => x.oneLine_exactText.between (by decide) (by decide)
  induction h with
  | number x => exact ⟨x.oneLine_plainText, x.oneLine_exactText, number x⟩
  | constant x => exact ⟨x.oneLine_plainText, x.oneLine_exactText, number x⟩
  | symbol written =>
    refine ⟨written.isWord.oneLine, written.isWord.oneLine, ?_⟩
    exact (oneLine_quoted _).between (by decide) (by decide)
  | @list items _ ih =>
    have printed : ∀ text ∈ items.map print, OneLine text :=
      List.forall_mem_map.mpr fun v mem => (ih v mem).1
    have inspected : ∀ text ∈ items.map inspect, OneLine text :=
      List.forall_mem_map.mpr fun v mem => (ih v mem).2.2
    have shown : OneLine ("[" ++ ", ".intercalate (items.map inspect) ++ "]") :=
      (oneLine_intercalate (by decide) inspected).between (by decide) (by decide)
    rw [print, brief, inspect, printAll_eq, inspectAll_eq]
    refine ⟨?_, shown, shown⟩
    exact (oneLine_intercalate (by decide) printed).between (by decide) (by decide)
  | builtin b =>
    refine ⟨procedure, procedure, ?_⟩
    exact b.oneLine_name.between (by decide) (by decide)
  | @lambda names body others f written _ =>
    have formals : ∀ text ∈ (names.map Value.symbol).map brief, OneLine text := by
      intro text mem
      simp only [List.map_map, List.mem_map] at mem
      obtain ⟨name, among, rfl⟩ := mem
      have list := written.item (v := .list (names.map Value.symbol)) (by simp)
      exact (list.item (List.mem_map_of_mem among)).isWord.oneLine
    refine ⟨procedure, procedure, ?_⟩
    rw [inspect, briefAll_eq]
    exact (oneLine_intercalate (by decide) formals).between (by decide) (by decide)

end Value

/-! ## Messages -/

/-- The message of a fault that may be raised is on one line. -/
theorem Fault.Kept.oneLine {codes : List String} {n : ℕ} {fault : Fault}
    (h : fault.Kept codes n) : OneLine fault.message := by
  have counted : ∀ n, OneLine (Fault.counted n "argument") := by
    intro n
    have ending : OneLine (if n = 1 then "" else "s") := by split <;> decide
    simp only [Fault.counted, oneLine_append, oneLine_toString, ending, and_true, true_and]
    decide
  cases fault with
  | unreadable cause => cases h.evaluated
  | malformed cause =>
    cases cause with
    | definitionName name =>
      exact oneLine_append.mpr ⟨by decide, (h.made name List.mem_cons_self).oneLine.2.1⟩
    | _ => exact oneLine_ofList.mpr (by decide)
  | notProcedure v | notNumber v | notParameter v =>
    exact oneLine_append.mpr ⟨by decide, (h.made v List.mem_cons_self).oneLine.1⟩
  | undefined v => exact oneLine_append.mpr ⟨by decide, (h.made v List.mem_cons_self).oneLine.2.1⟩
  | notBindable v =>
    have shown := (h.made v List.mem_cons_self).oneLine.2.2
    exact shown.between (by decide) (by decide)
  | listAsName v => exact oneLine_append.mpr ⟨by decide, (h.made v List.mem_cons_self).oneLine.2.2⟩
  | tooFew procedure least =>
    exact oneLine_append.mpr ⟨oneLine_append.mpr ⟨procedure.oneLine_name, by decide⟩, counted least⟩
  | argumentCount expected given =>
    have first : OneLine ("Expected " ++ toString expected) :=
      oneLine_append.mpr ⟨by decide, oneLine_toString expected⟩
    have words : OneLine " argument(s) but got " := by decide
    exact oneLine_append.mpr ⟨oneLine_append.mpr ⟨first, words⟩, oneLine_toString given⟩
  | arithmetic cause => exact oneLine_append.mpr ⟨by decide, by cases cause <;> decide⟩

end DecimalLisp
