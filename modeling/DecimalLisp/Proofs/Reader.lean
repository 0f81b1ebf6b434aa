import DecimalLisp.Proofs.Atom
import DecimalLisp.Proofs.Decimal.Notation
import DecimalLisp.Proofs.Grammar
import DecimalLisp.Proofs.Token

/-!
# Reading printed values

A value made of lists, symbols and numbers can be read back from its printed text. What comes
back is the same tree with the same symbols, and its numbers have the same values, though not
always the same digits. Several texts can stand one after the other: each reading takes the
tokens of one and leaves those of the others. Whatever the reader gives for any text at all can
be printed and read back.
-/

namespace DecimalLisp

open Token

namespace Decimal

/-- The numbers that a numeral may write: zeros, and those whose first digit is not too far from
the point. The last digit of a number stands no lower than any number can carry it. -/
def InRange (x : Decimal) : Prop :=
  x.coeff = 0 ∨ minExponent ≤ x.exp ∧ (x.adjusted.natAbs : ℤ) ≤ maxAdjusted

/-- The first digit of a number in range stands high enough for all digits to be shown. -/
theorem InRange.printed {x : Decimal} (h : x.InRange) : x.Printed := by
  have least : leastPrinted ≤ -maxAdjusted := by decide
  exact h.imp_right fun near => by omega

end Decimal

namespace Value

/-- The values that can be read: trees of symbols whose names are words and no numerals, and of
numbers in range. -/
inductive Readable : Value → Prop where
  | number {v x} : v.number? = some x → x.InRange → Readable v
  | symbol {name} : IsWord name → (∀ n, ¬ Numeral.Written name.toList n) → Readable (.symbol name)
  | list {items} : (∀ v ∈ items, Readable v) → Readable (.list items)

/-- The same tree with the same symbols, and with numbers of the same values. -/
inductive SameTree : Value → Value → Prop where
  | number {v w x y} : v.number? = some x → w.number? = some y → x.toRat = y.toRat → SameTree v w
  | symbol (name) : SameTree (.symbol name) (.symbol name)
  | nil : SameTree (.list []) (.list [])
  | cons {v w vs ws} : SameTree v w → SameTree (.list vs) (.list ws) →
      SameTree (.list (v :: vs)) (.list (w :: ws))

/-- Lists of the same trees are the same tree. -/
theorem SameTree.list {vs ws : List Value} (h : List.Forall₂ SameTree vs ws) :
    SameTree (.list vs) (.list ws) := by
  induction h with
  | nil => exact .nil
  | cons first _ ih => exact .cons first ih

theorem printAll_eq (vs : List Value) : printAll vs = vs.map print := by
  induction vs with
  | nil => rfl
  | cons v rest ih => rw [printAll, ih, List.map_cons]

/-- A number is printed as its plain text. -/
theorem print_of_number {v : Value} {x : Decimal} (h : v.number? = some x) :
    v.print = String.ofList x.plainText := by
  cases v <;> cases h <;> rfl

mutual

/-- The tokens of the printed text of a value. -/
def tokens : Value → List String
  | .list items => "(" :: (tokensAll items ++ [")"])
  | .number x => [String.ofList x.plainText]
  | .constant x => [String.ofList x.plainText]
  | .symbol name => [name]
  | .builtin _ => [procedureText]
  | .lambda _ _ _ => [procedureText]
  | .text content => [content]

/-- The tokens of the printed texts of several values. -/
def tokensAll : List Value → List String
  | [] => []
  | v :: rest => tokens v ++ tokensAll rest

end

/-- The tokens of several values are those of each, one after the other. -/
theorem tokensAll_eq (vs : List Value) : tokensAll vs = (vs.map tokens).flatten := by
  induction vs with
  | nil => rfl
  | cons v rest ih => rw [tokensAll, ih, List.map_cons, List.flatten_cons]

theorem tokens_of_number {v : Value} {x : Decimal} (h : v.number? = some x) :
    v.tokens = [String.ofList x.plainText] := by
  cases v <;> cases h <;> rfl

end Value

open Value

/-! ## Tokens of printed values -/

/-- A plain digit is no blank and no parenthesis. -/
theorem inWord_of_isDigit {c : Char} (h : c.isDigit = true) : InWord c := by
  refine ⟨Text.isBlank_of_isDigit h, ?_, ?_⟩
  · rintro rfl
    cases h
  · rintro rfl
    cases h

/-- A plain text is a word. -/
theorem isWord_plainText (x : Decimal) : IsWord (String.ofList x.plainText) := by
  constructor
  · rw [String.toList_ofList]
    exact x.plainText_ne_nil
  · intro c hc
    rw [String.toList_ofList] at hc
    rcases Decimal.mem_plainText hc with digit | rfl | rfl
    · exact inWord_of_isDigit digit
    · exact ⟨by decide, by decide, by decide⟩
    · exact ⟨by decide, by decide, by decide⟩

/-- The digits of a natural number are a word. -/
theorem isWord_toString (n : ℕ) : IsWord (toString n) := by
  have digits : (toString n).toList = Nat.toDigits 10 n := by
    rw [Nat.toString_eq_repr, Nat.toList_repr]
  constructor
  · rw [digits]
    exact Nat.toDigits_ne_nil
  · intro c hc
    rw [digits] at hc
    exact inWord_of_isDigit (Nat.isDigit_of_mem_toDigits (by omega) (by omega) hc)

/-- Texts in their order, spread over a text with blanks between each two of them; there may be
blanks at the two ends too. -/
inductive SpacedOut : List String → List Char → Prop where
  | none {blanks} : AllBlank blanks → SpacedOut [] blanks
  | one {lead trail} (text) : AllBlank lead → AllBlank trail →
      SpacedOut [text] (lead ++ (text.toList ++ trail))
  | more {lead gap rest next texts} (text) : AllBlank lead → AllBlank gap → gap ≠ [] →
      SpacedOut (next :: texts) rest →
      SpacedOut (text :: next :: texts) (lead ++ (text.toList ++ (gap ++ rest)))

/-- One space is blank. -/
theorem allBlank_space : AllBlank [' '] := by
  intro c hc
  rw [List.mem_singleton.mp hc]
  decide

/-- Texts that stand alone between blanks give their tokens one after the other. -/
theorem ofChars_spacedOut {vs : List Value} {text rest : List Char}
    (each : ∀ v ∈ vs, ∀ rest, EndsWord rest →
      ofChars (v.print.toList ++ rest) = v.tokens ++ ofChars rest)
    (spaced : SpacedOut (vs.map print) text) (ends : EndsWord rest) :
    ofChars (text ++ rest) = tokensAll vs ++ ofChars rest := by
  induction vs generalizing text with
  | nil =>
    cases spaced with
    | none blank => exact ofChars_blanks blank rest
  | cons v vs ih =>
    have first := each v List.mem_cons_self
    rw [tokensAll, List.append_assoc]
    cases vs with
    | nil =>
      cases spaced with
      | one _ lead trail =>
        rw [List.append_assoc, ofChars_blanks lead, List.append_assoc,
          first _ (endsWord_of_allBlank trail fun _ => ends), ofChars_blanks trail]
        rfl
    | cons w vs =>
      cases spaced with
      | @more lead gap rest' _ _ _ hlead hgap present others =>
        have apart : EndsWord (gap ++ (rest' ++ rest)) :=
          endsWord_of_allBlank hgap fun none => absurd none present
        rw [List.append_assoc, ofChars_blanks hlead, List.append_assoc, List.append_assoc,
          first _ apart, ofChars_blanks hgap,
          ih (fun u hu => each u (List.mem_cons_of_mem v hu)) others]

/-- The items of a printed list stand between single blanks. -/
theorem spacedOut_intercalate (texts : List String) :
    SpacedOut texts (" ".intercalate texts).toList := by
  induction texts with
  | nil => exact .none nofun
  | cons text texts ih =>
    cases texts with
    | nil =>
      have alone := @SpacedOut.one [] [] text nofun nofun
      simpa using alone
    | cons next texts =>
      have before := @SpacedOut.more [] [' '] _ _ _ text nofun allBlank_space
        (List.cons_ne_nil _ _) ih
      simpa using before

/-- A readable value gives its tokens wherever its text stands. -/
theorem Value.Readable.ofChars_print {v : Value} (h : v.Readable) (rest : List Char)
    (ends : EndsWord rest) : ofChars (v.print.toList ++ rest) = v.tokens ++ ofChars rest := by
  induction h generalizing rest with
  | number number _ =>
    rw [print_of_number number, tokens_of_number number]
    exact ofChars_word (isWord_plainText _) ends
  | symbol word _ => exact ofChars_word word ends
  | @list items _ ih =>
    have inner := ofChars_spacedOut ih (spacedOut_intercalate (items.map print))
      (endsWord_parenthesis (Or.inr rfl) rest)
    have text : (Value.list items).print.toList ++ rest =
        '(' :: ((" ".intercalate (items.map print)).toList ++ ')' :: rest) := by
      rw [print, printAll_eq]
      simp
    rw [text, ofChars_parenthesis (Or.inl rfl), inner, ofChars_parenthesis (Or.inr rfl), tokens]
    simp

/-! ## Reading tokens -/

namespace Reader

/-- The plain text of a printed number other than zero is read as a number of the same value, or it
is refused because the first digit stands too far from the point. -/
theorem atom_plainText_eq {x : Decimal} (hz : x.coeff ≠ 0)
    (printed : Decimal.leastPrinted ≤ x.adjusted) (least : Decimal.minExponent ≤ x.exp)
    (most : x.adjusted ≤ Decimal.maxExponent) :
    ∃ y : Decimal, y.toRat = x.toRat ∧ atom (String.ofList x.plainText) =
      if Decimal.maxAdjusted < x.adjusted.natAbs then
        .error (.outOfRange (String.ofList x.plainText))
      else .ok (.number y) := by
  obtain ⟨n, written, number⟩ := Decimal.written_positional hz
  rw [Decimal.plainText_of_le hz printed]
  have value := x.toRat_plainNumber
  have last := x.min_exp_le_plainNumber
  generalize x.plainNumber = y at number value last
  refine ⟨y, value, ?_⟩
  have hy : y.coeff ≠ 0 := by
    rw [ne_eq, ← Decimal.toRat_eq_zero_iff, value, Decimal.toRat_eq_zero_iff]
    exact hz
  have first : y.adjusted = x.adjusted := by
    rw [← Decimal.log_abs_toRat hy, value, Decimal.log_abs_toRat hz]
  have nonzero : y.isZero = false := beq_eq_false_iff_ne.mpr hy
  have below : Decimal.minExponent ≤ 0 := by decide
  have carried : y.representable = true := by
    rw [Decimal.representable, nonzero, if_neg Bool.false_ne_true, Bool.and_eq_true]
    exact ⟨decide_eq_true (by omega), decide_eq_true (by omega)⟩
  rw [atom_of_written (by rwa [String.toList_ofList]), number, carried,
    if_neg Bool.true_eq_false.mp, first]
  exact if_congr (and_iff_right hy) rfl rfl

/-- The plain text of a zero is read as a zero. -/
theorem atom_plainText_zero {x : Decimal} (hz : x.coeff = 0) :
    atom (String.ofList x.plainText) = .ok (.number ⟨false, 0, 0⟩) := by
  rw [Decimal.plainText, if_pos hz]
  rfl

/-- The plain text of a number in range is read as a number of the same value. -/
theorem atom_plainText {x : Decimal} (h : x.InRange) :
    ∃ y, atom (String.ofList x.plainText) = .ok (.number y) ∧ y.toRat = x.toRat := by
  by_cases hz : x.coeff = 0
  · refine ⟨_, atom_plainText_zero hz, ?_⟩
    rw [Decimal.toRat_eq_zero_iff.mpr hz, Decimal.toRat_eq_zero_iff.mpr rfl]
  · obtain ⟨least, near⟩ := h.resolve_left hz
    have printed := h.printed.resolve_left hz
    have range : Decimal.maxAdjusted ≤ Decimal.maxExponent := by decide
    obtain ⟨y, value, read⟩ := atom_plainText_eq hz printed least (by omega)
    exact ⟨y, read.trans (if_neg (not_lt.mpr near)), value⟩

/-- The tokens of a readable value are an expression, and its tree is the same. -/
theorem means_tokens {v : Value} (h : v.Readable) : ∃ w, SameTree v w ∧ Means v.tokens w := by
  induction h with
  | @number v x number range =>
    obtain ⟨y, read, value⟩ := atom_plainText range
    refine ⟨.number y, .number number rfl value.symm, ?_⟩
    rw [tokens_of_number number]
    exact .atom (isWord_plainText x).not_parenthesis read
  | @symbol name word other =>
    exact ⟨.symbol name, .symbol name, .atom word.not_parenthesis (atom_of_not_written other)⟩
  | @list items _ ih =>
    have inside : ∃ ws, List.Forall₂ SameTree items ws ∧
        List.Forall₂ Means (items.map tokens) ws := by
      clear * - ih
      induction items with
      | nil => exact ⟨[], .nil, .nil⟩
      | cons v items step =>
        obtain ⟨w, same, means⟩ := ih v List.mem_cons_self
        obtain ⟨ws, others, more⟩ := step fun u hu => ih u (List.mem_cons_of_mem v hu)
        exact ⟨w :: ws, .cons same others, .cons means more⟩
    obtain ⟨ws, same, means⟩ := inside
    refine ⟨.list ws, .list same, ?_⟩
    rw [tokens, tokensAll_eq]
    exact .list means

/-- The tokens of a readable value are read as the same tree, whatever comes after them. -/
theorem readInside_tokens {v : Value} (h : v.Readable) :
    ∃ w, SameTree v w ∧
      ∀ opened rest, readInside opened (v.tokens ++ rest) = deliver opened w rest := by
  obtain ⟨w, same, means⟩ := means_tokens h
  exact ⟨w, same, means.readAs⟩

/-- Several readings, each of the tokens that the one before it has left. -/
def readTimes : ℕ → List String → List (Except ReadFault Value) × List String
  | 0, tokens => ([], tokens)
  | n + 1, tokens =>
    let others := readTimes n (read tokens).rest
    ((read tokens).result :: others.1, others.2)

/-- The tokens of several readable values are read as the same trees. -/
theorem readTimes_tokensAll {vs : List Value} (h : ∀ v ∈ vs, v.Readable) (rest : List String) :
    ∃ ws, List.Forall₂ SameTree vs ws ∧
      readTimes vs.length (tokensAll vs ++ rest) = (ws.map .ok, rest) := by
  induction vs with
  | nil => exact ⟨[], .nil, rfl⟩
  | cons v vs ih =>
    obtain ⟨w, same, reading⟩ := readInside_tokens (h v List.mem_cons_self)
    obtain ⟨ws, others, readings⟩ := ih fun u hu => h u (List.mem_cons_of_mem v hu)
    refine ⟨w :: ws, .cons same others, ?_⟩
    have first : read (tokensAll (v :: vs) ++ rest) = ⟨.ok w, tokensAll vs ++ rest⟩ := by
      rw [read, tokensAll, List.append_assoc, reading]
      rfl
    rw [List.length_cons, readTimes, first]
    dsimp only
    rw [readings]
    rfl

/-- Words between parentheses are tokens one by one. -/
theorem ofText_words {words : List String} (h : ∀ word ∈ words, IsWord word) :
    Token.ofText ("(" ++ " ".intercalate words ++ ")") = "(" :: (words ++ [")"]) := by
  have each : ∀ v ∈ words.map Value.symbol, ∀ rest, EndsWord rest →
      ofChars (v.print.toList ++ rest) = v.tokens ++ ofChars rest := by
    intro v mem rest ends
    obtain ⟨word, among, rfl⟩ := List.mem_map.mp mem
    exact ofChars_word (h word among) ends
  have spaced : SpacedOut ((words.map Value.symbol).map print) (" ".intercalate words).toList := by
    have same : (words.map Value.symbol).map print = words := by
      rw [List.map_map]
      exact List.map_id words
    rw [same]
    exact spacedOut_intercalate words
  have inner := ofChars_spacedOut each spaced (endsWord_parenthesis (Or.inr rfl) [])
  have alone : tokensAll (words.map Value.symbol) = words := by
    rw [tokensAll_eq, List.map_map]
    exact List.flatMap_singleton' words
  have text : ("(" ++ " ".intercalate words ++ ")").toList =
      '(' :: ((" ".intercalate words).toList ++ [')']) := by simp
  rw [Token.ofText_eq, text, ofChars_parenthesis (Or.inl rfl), inner, alone,
    ofChars_parenthesis (Or.inr rfl)]
  rfl

/-- Words between parentheses are read as the list of what they stand for. -/
theorem parse_words {words : List String} {vs : List Value}
    (stand : List.Forall₂ (fun word v => IsWord word ∧ atom word = .ok v) words vs) :
    parse ("(" ++ " ".intercalate words ++ ")") = .ok (.list vs) := by
  have inWords : ∀ word ∈ words, IsWord word := by
    induction stand with
    | nil => exact nofun
    | cons first _ ih => exact List.forall_mem_cons.mpr ⟨first.1, ih⟩
  have parts : List.Forall₂ Means (words.map fun word => [word]) vs :=
    List.forall₂_map_left_iff.mpr (stand.imp fun _ _ h => .atom h.1.not_parenthesis h.2)
  have means := Means.list parts
  rw [← List.flatMap_def, List.flatMap_singleton'] at means
  have reading := means.readAs [] []
  rw [List.append_nil] at reading
  rw [parse, Reader.read, ofText_words inWords, reading]
  rfl

/-! ## Values that are read -/

/-- What a word stands for is readable. -/
theorem readable_of_atom {token : String} (word : IsWord token) {value : Value}
    (h : atom token = .ok value) : value.Readable := by
  rw [atom] at h
  split at h
  · next none =>
    cases h
    refine .symbol word fun n written => ?_
    rw [Numeral.ofText?_eq_some_iff.mpr written] at none
    cases none
  · next n _ =>
    dsimp only at h
    split at h
    · cases h
    · next carried =>
      split at h
      · cases h
      · next near =>
        cases h
        refine .number rfl ?_
        by_cases hz : n.number.coeff = 0
        · exact Or.inl hz
        · have nonzero : n.number.isZero = false := beq_eq_false_iff_ne.mpr hz
          rw [Bool.not_eq_true', Bool.not_eq_false, Decimal.representable, Bool.and_eq_true,
            decide_eq_true_eq] at carried
          rw [nonzero, Bool.not_false, Bool.true_and, decide_eq_true_eq] at near
          exact Or.inr ⟨carried.1, not_lt.mp near⟩

/-- What is read has a property that all words have and all lists of items that have it. -/
theorem of_readInside {P : Value → Prop}
    (words : ∀ {token}, IsWord token → ∀ {v}, atom token = .ok v → P v)
    (lists : ∀ {items}, (∀ v ∈ items, P v) → P (.list items))
    {tokens : List String} (valid : ∀ token ∈ tokens, Valid token)
    {opened : List (List Value)} (items : ∀ values ∈ opened, ∀ v ∈ values, P v)
    {value : Value} (h : (readInside opened tokens).result = .ok value) : P value := by
  induction tokens generalizing opened with
  | nil => cases h
  | cons token rest ih =>
    have valid' : ∀ token ∈ rest, Valid token := fun t ht => valid t (List.mem_cons_of_mem _ ht)
    -- A value that has the property may be delivered wherever such values are.
    have delivered : ∀ {opened : List (List Value)} {v : Value}, P v →
        (∀ values ∈ opened, ∀ v ∈ values, P v) →
        (deliver opened v rest).result = .ok value → P value := by
      intro opened v hv items h
      cases opened with
      | nil =>
        cases h
        exact hv
      | cons values others =>
        refine ih valid' (fun us hus u hu => ?_) h
        rcases List.mem_cons.mp hus with rfl | hus
        · rcases List.mem_cons.mp hu with rfl | hu
          · exact hv
          · exact items values List.mem_cons_self u hu
        · exact items us (List.mem_cons_of_mem values hus) u hu
    rcases valid token List.mem_cons_self with rfl | rfl | word
    · rw [readInside_open] at h
      refine ih valid' (fun us hus u hu => ?_) h
      rcases List.mem_cons.mp hus with rfl | hus
      · exact absurd hu List.not_mem_nil
      · exact items us hus u hu
    · cases opened with
      | nil => cases h
      | cons values others =>
        rw [readInside_close] at h
        refine delivered (lists fun v hv => ?_) (fun us hus => ?_) h
        · exact items values List.mem_cons_self v (List.mem_reverse.mp hv)
        · exact items us (List.mem_cons_of_mem values hus)
    · cases read : atom token with
      | error fault =>
        rw [readInside_fault word.not_parenthesis read] at h
        cases h
      | ok v =>
        rw [readInside_atom word.not_parenthesis read] at h
        exact delivered (words word read) items h

/-- What is read inside lists of readable values is readable. -/
theorem readable_of_readInside {tokens : List String} (valid : ∀ token ∈ tokens, Valid token)
    {opened : List (List Value)} (items : ∀ values ∈ opened, ∀ v ∈ values, v.Readable)
    {value : Value} (h : (readInside opened tokens).result = .ok value) : value.Readable :=
  of_readInside readable_of_atom .list valid items h

/-- What is read from a text is readable. -/
theorem readable_of_parse {text : String} {value : Value} (h : parse text = .ok value) :
    value.Readable :=
  readable_of_readInside (fun _ => valid_of_mem_ofText) (fun _ none => absurd none List.not_mem_nil)
    h

end Reader

open Reader

/-- Printed readable values that stand between blanks are read back as the same trees, by as
many readings, and no token is left. And what is read from any text is readable; its printed
text is read back as the same tree. -/
theorem read_back_printed :
    (∀ (vs : List Value) (text : String), (∀ v ∈ vs, v.Readable) →
      SpacedOut (vs.map print) text.toList →
      ∃ ws, List.Forall₂ SameTree vs ws ∧
        readTimes vs.length (Token.ofText text) = (ws.map .ok, [])) ∧
    (∀ (text : String) (v : Value), parse text = .ok v →
      v.Readable ∧ ∃ w, parse v.print = .ok w ∧ SameTree v w) := by
  have ends : EndsWord [] := nofun
  constructor
  · intro vs text readable spaced
    have found : Token.ofText text = tokensAll vs ++ [] := by
      have composed := ofChars_spacedOut (fun v hv => (readable v hv).ofChars_print) spaced ends
      rwa [List.append_nil, ← Token.ofText_eq] at composed
    rw [found]
    exact readTimes_tokensAll readable []
  · intro text v h
    have readable := readable_of_parse h
    obtain ⟨w, same, reading⟩ := readInside_tokens readable
    refine ⟨readable, w, ?_, same⟩
    have found : Token.ofText v.print = v.tokens ++ [] := by
      have composed := readable.ofChars_print [] ends
      rwa [List.append_nil, ← Token.ofText_eq] at composed
    rw [parse, Reader.read, found, reading]
    rfl

/-- A list and a number with a needless zero are read back one after the other. -/
theorem read_back_printed_two :
    parse "(a)" = .ok (.list [.symbol "a"]) ∧ parse "1.50" = .ok (.number ⟨false, 150, -2⟩) ∧
      SpacedOut ["(a)", "1.5"] " (a)  1.5".toList ∧
      ∃ ws, List.Forall₂ SameTree [.list [.symbol "a"], .number ⟨false, 150, -2⟩] ws ∧
        readTimes 2 (Token.ofText " (a)  1.5") = (ws.map .ok, []) := by
  have listed : parse "(a)" = .ok (.list [.symbol "a"]) := rfl
  have number : parse "1.50" = .ok (.number ⟨false, 150, -2⟩) := rfl
  have spaced : SpacedOut ["(a)", "1.5"] " (a)  1.5".toList :=
    @SpacedOut.more [' '] [' '] [' ', '1', '.', '5'] _ _ "(a)" allBlank_space allBlank_space
      (List.cons_ne_nil _ _) (@SpacedOut.one [' '] [] "1.5" allBlank_space nofun)
  refine ⟨listed, number, spaced, read_back_printed.1 _ _ (fun v hv => ?_) spaced⟩
  rcases List.mem_cons.mp hv with rfl | hv
  · exact (read_back_printed.2 "(a)" _ listed).1
  · rw [List.mem_singleton.mp hv]
    exact (read_back_printed.2 "1.50" _ number).1

end DecimalLisp
