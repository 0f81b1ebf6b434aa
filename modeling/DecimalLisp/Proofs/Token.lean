import DecimalLisp.Token

/-!
# Tokens of composed texts

The tokens of a text are found from its front: blanks are passed over, a parenthesis is a
token, and a word that does not go on is one. With these equations the tokens of a text that
is composed of parts are computed part by part. Every token is of one of these kinds.
-/

namespace DecimalLisp.Token

open Text

/-- A character that can stand in a word. -/
def InWord (c : Char) : Prop :=
  isBlank c = false ∧ c ≠ '(' ∧ c ≠ ')'

/-- A word: a text that is not empty and has neither blanks nor parentheses. -/
structure IsWord (text : String) : Prop where
  /-- There is a character. -/
  nonempty : text.toList ≠ []
  /-- Every character can stand in a word. -/
  inWord : ∀ c ∈ text.toList, InWord c

/-- What a token can be: a parenthesis or a word. -/
def Valid (token : String) : Prop :=
  token = "(" ∨ token = ")" ∨ IsWord token

/-- A text before which a word ends. -/
def EndsWord (text : List Char) : Prop :=
  ∀ c ∈ text.head?, ¬ InWord c

/-- A text of blanks alone. -/
def AllBlank (text : List Char) : Prop :=
  ∀ c ∈ text, isBlank c = true

/-- The tokens of a sequence of characters. -/
def ofChars (text : List Char) : List String :=
  (text.foldl Scan.step Scan.start).result

theorem ofText_eq (text : String) : ofText text = ofChars text.toList := rfl

theorem not_inWord_of_blank {c : Char} (h : isBlank c = true) : ¬ InWord c :=
  fun hw => Bool.noConfusion (h.symm.trans hw.1)

theorem not_parenthesis_of_blank {c : Char} (h : isBlank c = true) : ¬ (c = '(' ∨ c = ')') := by
  rintro (rfl | rfl)
  · exact Bool.noConfusion (h.symm.trans isBlank_parentheses.1)
  · exact Bool.noConfusion (h.symm.trans isBlank_parentheses.2)

/-- A word is no parenthesis. -/
theorem IsWord.not_parenthesis {text : String} (h : IsWord text) : text ≠ "(" ∧ text ≠ ")" := by
  constructor
  · rintro rfl
    exact (h.inWord '(' (by decide)).2.1 rfl
  · rintro rfl
    exact (h.inWord ')' (by decide)).2.2 rfl

/-- A word ends before blanks, or before what follows if there are none. -/
theorem endsWord_of_allBlank {blanks rest : List Char} (h : AllBlank blanks)
    (ends : blanks = [] → EndsWord rest) : EndsWord (blanks ++ rest) := by
  cases blanks with
  | nil => exact ends rfl
  | cons c more =>
    intro d hd
    cases hd
    exact not_inWord_of_blank (h c List.mem_cons_self)

/-- A word ends before a parenthesis. -/
theorem endsWord_parenthesis {c : Char} (h : c = '(' ∨ c = ')') (rest : List Char) :
    EndsWord (c :: rest) := by
  intro d hd
  cases hd
  rcases h with rfl | rfl
  · exact fun word => word.2.1 rfl
  · exact fun word => word.2.2 rfl

namespace Scan

/-- The scan after tokens that were found before. -/
def after (found : List String) (scan : Scan) : Scan :=
  ⟨scan.tokens ++ found, scan.word⟩

theorem endWord_after (found : List String) (scan : Scan) :
    (scan.after found).endWord = scan.endWord.after found := by
  unfold endWord after
  dsimp only
  split <;> rfl

/-- Tokens that were found before do not matter to a step. -/
theorem step_after (found : List String) (scan : Scan) (c : Char) :
    (scan.after found).step c = (scan.step c).after found := by
  unfold step
  rw [endWord_after]
  split
  · rfl
  · split <;> rfl

theorem foldl_after (found : List String) (scan : Scan) (text : List Char) :
    text.foldl step (scan.after found) = (text.foldl step scan).after found := by
  induction text generalizing scan with
  | nil => rfl
  | cons c rest ih => rw [List.foldl_cons, List.foldl_cons, step_after, ih]

theorem result_after (found : List String) (scan : Scan) :
    (scan.after found).result = found.reverse ++ scan.result := by
  rw [result, endWord_after, after, List.reverse_append, result]

/-- The characters of a word are collected. -/
theorem foldl_word {word : List Char} (h : ∀ c ∈ word, InWord c) (scan : Scan) :
    word.foldl step scan = ⟨scan.tokens, word.reverse ++ scan.word⟩ := by
  induction word generalizing scan with
  | nil => rfl
  | cons c rest ih =>
    obtain ⟨blank, opening, closing⟩ := h c List.mem_cons_self
    have one : scan.step c = ⟨scan.tokens, c :: scan.word⟩ := by
      rw [step, if_neg (not_or.mpr ⟨opening, closing⟩), blank]
      rfl
    rw [List.foldl_cons, one, ih fun d hd => h d (List.mem_cons_of_mem c hd)]
    simp

/-- A word that ends is put before the tokens that follow. -/
theorem foldl_endWord {text : List Char} (ends : EndsWord text) (word : List Char) :
    (text.foldl step ⟨[], word⟩).result =
      (endWord ⟨[], word⟩).tokens.reverse ++ ofChars text := by
  cases text with
  | nil => exact (List.append_nil _).symm
  | cons c rest =>
    have ended : step ⟨[], word⟩ c = (start.step c).after (endWord ⟨[], word⟩).tokens := by
      have hword : (endWord ⟨[], word⟩).word = [] := by
        unfold endWord
        split <;> trivial
      have hscan : endWord ⟨[], word⟩ = ⟨(endWord ⟨[], word⟩).tokens, []⟩ := by
        rw [← hword]
      unfold step
      split
      · rfl
      · next other =>
        split
        · exact hscan
        · next visible =>
          refine absurd ?_ (ends c rfl)
          exact ⟨Bool.not_eq_true _ ▸ visible, (not_or.mp other).1, (not_or.mp other).2⟩
    rw [List.foldl_cons, ended, foldl_after, result_after]
    rfl

end Scan

/-- A blank is passed over. -/
theorem ofChars_blank {c : Char} (h : isBlank c = true) (rest : List Char) :
    ofChars (c :: rest) = ofChars rest := by
  have one : Scan.start.step c = Scan.start := by
    rw [Scan.step, if_neg (not_parenthesis_of_blank h), if_pos h]
    rfl
  rw [ofChars, List.foldl_cons, one, ofChars]

theorem ofChars_blanks {blanks : List Char} (h : AllBlank blanks) (rest : List Char) :
    ofChars (blanks ++ rest) = ofChars rest := by
  induction blanks with
  | nil => rfl
  | cons c more ih =>
    rw [List.cons_append, ofChars_blank (h c List.mem_cons_self),
      ih fun d hd => h d (List.mem_cons_of_mem c hd)]

/-- A parenthesis is a token. -/
theorem ofChars_parenthesis {c : Char} (h : c = '(' ∨ c = ')') (rest : List Char) :
    ofChars (c :: rest) = String.singleton c :: ofChars rest := by
  have one : Scan.start.step c = Scan.start.after [String.singleton c] := by
    rw [Scan.step, if_pos h]
    rfl
  rw [ofChars, List.foldl_cons, one, Scan.foldl_after, Scan.result_after]
  rfl

/-- A word that does not go on is a token. -/
theorem ofChars_word {word : String} (h : IsWord word) {rest : List Char} (ends : EndsWord rest) :
    ofChars (word.toList ++ rest) = word :: ofChars rest := by
  have present : word.toList.reverse ≠ [] := by
    rw [ne_eq, List.reverse_eq_nil_iff]
    exact h.nonempty
  rw [ofChars, List.foldl_append, Scan.foldl_word h.inWord, Scan.start, List.append_nil,
    Scan.foldl_endWord ends, Scan.endWord, if_neg present]
  simp

/-- Before a text where a word ends, other text has its tokens for itself. -/
theorem ofChars_append {rest : List Char} (ends : EndsWord rest) (text : List Char) :
    ofChars (text ++ rest) = ofChars text ++ ofChars rest := by
  rw [ofChars, List.foldl_append]
  change (rest.foldl Scan.step _).result = (text.foldl Scan.step Scan.start).result ++ _
  generalize text.foldl Scan.step Scan.start = scan
  have split : scan = (⟨[], scan.word⟩ : Scan).after scan.tokens := rfl
  rw [split, Scan.foldl_after, Scan.result_after, Scan.foldl_endWord ends, Scan.result_after,
    List.append_assoc]
  rfl

/-- A scan that has found something has a token in the end, whatever comes. -/
theorem Scan.result_ne_nil {scan : Scan} (found : scan.tokens ≠ [] ∨ scan.word ≠ [])
    (text : List Char) : (text.foldl step scan).result ≠ [] := by
  have ended : ∀ {scan : Scan}, scan.tokens ≠ [] ∨ scan.word ≠ [] → scan.endWord.tokens ≠ [] := by
    intro scan found
    rw [endWord]
    split
    · next empty => exact found.resolve_right (absurd empty)
    · exact List.cons_ne_nil _ _
  induction text generalizing scan with
  | nil => exact List.reverse_ne_nil_iff.mpr (ended found)
  | cons c rest ih =>
    refine ih ?_
    rw [step]
    split
    · exact .inl (List.cons_ne_nil _ _)
    · split
      · exact .inl (ended found)
      · exact .inr (List.cons_ne_nil _ _)

/-- A text has no tokens if and only if it is blank. -/
theorem ofText_eq_nil_iff {text : String} : ofText text = [] ↔ AllBlank text.toList := by
  have blank : ∀ chars, ofChars chars = [] ↔ AllBlank chars := by
    intro chars
    induction chars with
    | nil => exact ⟨fun _ => nofun, fun _ => rfl⟩
    | cons c rest ih =>
      rw [AllBlank, List.forall_mem_cons]
      by_cases passed : isBlank c = true
      · rw [ofChars_blank passed, ih]
        exact ⟨fun h => ⟨passed, h⟩, fun h => h.2⟩
      · refine ⟨fun none => absurd none (Scan.result_ne_nil ?_ rest), fun h => absurd h.1 passed⟩
        rw [Scan.step, if_neg passed]
        split
        · exact .inl (List.cons_ne_nil _ _)
        · exact .inr (List.cons_ne_nil _ _)
  exact blank text.toList

/-- A blank at the end of a text is passed over. -/
theorem ofChars_append_blank {c : Char} (h : isBlank c = true) (text : List Char) :
    ofChars (text ++ [c]) = ofChars text := by
  have ended : ∀ scan : Scan, scan.endWord.result = scan.result := by
    intro scan
    have idle : scan.endWord.endWord = scan.endWord := by
      unfold Scan.endWord
      split
      · rfl
      · rfl
    rw [Scan.result, idle]
    rfl
  rw [ofChars, List.foldl_append, List.foldl_cons, List.foldl_nil, Scan.step,
    if_neg (not_parenthesis_of_blank h), if_pos h, ended]
  rfl

/-- What a scan holds while it goes on: tokens, and characters of a word. -/
structure Scan.Sound (scan : Scan) : Prop where
  /-- The finished tokens are tokens. -/
  valid : ∀ token ∈ scan.tokens, Valid token
  /-- The unfinished word has characters of a word. -/
  inWord : ∀ c ∈ scan.word, InWord c

/-- Ending the word leaves tokens. -/
theorem Scan.Sound.endWord {scan : Scan} (h : scan.Sound) : scan.endWord.Sound := by
  unfold Scan.endWord
  split
  · exact h
  · next present =>
    refine ⟨fun token ht => ?_, fun c hc => absurd hc List.not_mem_nil⟩
    rcases List.mem_cons.mp ht with rfl | ht
    · refine Or.inr (Or.inr ⟨?_, fun c hc => h.inWord c ?_⟩)
      · simpa using present
      · simpa using hc
    · exact h.valid token ht

theorem Scan.Sound.step {scan : Scan} (h : scan.Sound) (c : Char) : (scan.step c).Sound := by
  unfold Scan.step
  split
  · next parenthesis =>
    refine ⟨fun token ht => ?_, fun c hc => absurd hc List.not_mem_nil⟩
    rcases List.mem_cons.mp ht with rfl | ht
    · rcases parenthesis with rfl | rfl
      · exact Or.inl rfl
      · exact Or.inr (Or.inl rfl)
    · exact h.endWord.valid token ht
  · next other =>
    split
    · exact h.endWord
    · next visible =>
      refine ⟨h.valid, fun d hd => ?_⟩
      rcases List.mem_cons.mp hd with rfl | hd
      · exact ⟨Bool.not_eq_true _ ▸ visible, (not_or.mp other).1, (not_or.mp other).2⟩
      · exact h.inWord d hd

/-- Every token of a text is a parenthesis or a word. -/
theorem valid_of_mem_ofText {text token : String} (h : token ∈ ofText text) : Valid token := by
  have run : ∀ (chars : List Char) (scan : Scan), scan.Sound →
      (chars.foldl Scan.step scan).Sound := by
    intro chars
    induction chars with
    | nil => exact fun _ hs => hs
    | cons c rest ih => exact fun scan hs => ih (scan.step c) (hs.step c)
  have sound := (run text.toList Scan.start ⟨nofun, nofun⟩).endWord
  exact sound.valid token (List.mem_reverse.mp h)

end DecimalLisp.Token
