import DecimalLisp.Proofs.Token
import Mathlib.Data.List.Chain

/-!
# Decomposition into tokens

A text can be cut into parentheses and words with blanks around them, so that a blank stands between
each two words that are neighbours. There is one way to do that, and its tokens are the tokens of
the text. So it does not matter how many blanks stand together, nor whether there are any before or
after a parenthesis, and a text that is divided at blanks or at a parenthesis has the tokens of its
parts.
-/

namespace DecimalLisp.Token

open Text

/-- A token and the blanks after it. -/
structure Piece where
  /-- The token. -/
  token : String
  /-- The blanks. -/
  gap : List Char

namespace Piece

/-- The text of a token and the blanks after it. -/
def chars (piece : Piece) : List Char :=
  piece.token.toList ++ piece.gap

/-- Whether a token may be followed by another: if both are words, there has to be a blank. -/
def ApartFrom (piece next : Piece) : Prop :=
  IsWord piece.token → IsWord next.token → piece.gap ≠ []

end Piece

/-- A text that is cut: blanks at its front, and then tokens with the blanks after each. -/
structure Cut (text lead : List Char) (pieces : List Piece) : Prop where
  /-- The text is all of that, one after the other. -/
  text_eq : text = lead ++ pieces.flatMap Piece.chars
  /-- There are but blanks at the front. -/
  lead_blank : AllBlank lead
  /-- There are but blanks after each token. -/
  gap_blank : ∀ piece ∈ pieces, AllBlank piece.gap
  /-- The tokens are parentheses and words. -/
  valid : ∀ piece ∈ pieces, Valid piece.token
  /-- Neighbours are kept apart. -/
  apart : pieces.IsChain Piece.ApartFrom

/-! ## A cut has the tokens of its text -/

/-- A token is found at the front of a text, if it ends there. -/
theorem ofChars_token {token : String} (valid : Valid token) {rest : List Char}
    (ends : IsWord token → EndsWord rest) :
    ofChars (token.toList ++ rest) = token :: ofChars rest := by
  rcases valid with rfl | rfl | word
  · exact ofChars_parenthesis (.inl rfl) rest
  · exact ofChars_parenthesis (.inr rfl) rest
  · exact ofChars_word word (ends word)

/-- A word ends before a token that is a parenthesis. -/
theorem endsWord_token {token : String} (parenthesis : token = "(" ∨ token = ")")
    (rest : List Char) : EndsWord (token.toList ++ rest) := by
  rcases parenthesis with rfl | rfl
  · exact endsWord_parenthesis (.inl rfl) rest
  · exact endsWord_parenthesis (.inr rfl) rest

/-- A word ends at the blanks after it, or at the next token. -/
theorem endsWord_of_isChain {piece : Piece} {others : List Piece} (blank : AllBlank piece.gap)
    (valid : ∀ next ∈ others, Valid next.token)
    (apart : (piece :: others).IsChain Piece.ApartFrom) (word : IsWord piece.token) :
    EndsWord (piece.gap ++ others.flatMap Piece.chars) := by
  refine endsWord_of_allBlank blank fun none => ?_
  cases apart with
  | singleton => exact nofun
  | @cons_cons _ next rest apart _ =>
    have parenthesis : next.token = "(" ∨ next.token = ")" := by
      rcases valid next List.mem_cons_self with opening | closing | word'
      · exact .inl opening
      · exact .inr closing
      · exact absurd none (apart word word')
    rw [List.flatMap_cons, Piece.chars, List.append_assoc]
    exact endsWord_token parenthesis _

/-- The tokens of a text are those into which it is cut. -/
theorem Cut.tokens_eq {text lead : List Char} {pieces : List Piece} (h : Cut text lead pieces) :
    ofChars text = pieces.map Piece.token := by
  obtain ⟨rfl, front, blank, valid, apart⟩ := h
  rw [ofChars_blanks front]
  induction pieces with
  | nil => rfl
  | cons piece others ih =>
    obtain ⟨blank, blanks⟩ := List.forall_mem_cons.mp blank
    obtain ⟨here, later⟩ := List.forall_mem_cons.mp valid
    have ends := endsWord_of_isChain blank later apart
    rw [List.flatMap_cons, Piece.chars, List.append_assoc, ofChars_token here ends,
      ofChars_blanks blank, ih blanks later apart.tail, List.map_cons]

/-! ## Every text can be cut -/

namespace Cut

variable {text lead : List Char} {pieces : List Piece} {c : Char}

/-- A blank in front of a text goes to the blanks at its front. -/
theorem blank (h : Cut text lead pieces) (blank : isBlank c = true) :
    Cut (c :: text) (c :: lead) pieces where
  text_eq := congrArg (c :: ·) h.text_eq
  lead_blank := List.forall_mem_cons.mpr ⟨blank, h.lead_blank⟩
  gap_blank := h.gap_blank
  valid := h.valid
  apart := h.apart

/-- A character that is a token takes the blanks that were at the front of the text after it. -/
theorem single (h : Cut text lead pieces) (valid : Valid (String.singleton c))
    (apart : ∀ next ∈ pieces.head?, Piece.ApartFrom ⟨String.singleton c, lead⟩ next) :
    Cut (c :: text) [] (⟨String.singleton c, lead⟩ :: pieces) where
  text_eq := by
    rw [h.text_eq, List.flatMap_cons, Piece.chars, String.toList_singleton]
    rfl
  lead_blank := nofun
  gap_blank := List.forall_mem_cons.mpr ⟨h.lead_blank, h.gap_blank⟩
  valid := List.forall_mem_cons.mpr ⟨valid, h.valid⟩
  apart := h.apart.cons apart

/-- A character in front of a text that begins with a word goes to the word. -/
theorem inWord {token : String} {gap : List Char} (h : Cut text [] (⟨token, gap⟩ :: pieces))
    (word : IsWord token) (inWord : InWord c) :
    Cut (c :: text) [] (⟨String.ofList (c :: token.toList), gap⟩ :: pieces) where
  text_eq := by
    rw [h.text_eq, List.flatMap_cons, List.flatMap_cons, Piece.chars, Piece.chars,
      String.toList_ofList]
    rfl
  lead_blank := nofun
  gap_blank := List.forall_mem_cons.mpr (List.forall_mem_cons.mp h.gap_blank)
  valid := by
    obtain ⟨-, later⟩ := List.forall_mem_cons.mp h.valid
    refine List.forall_mem_cons.mpr ⟨.inr (.inr ⟨?_, ?_⟩), later⟩
    · rw [String.toList_ofList]
      exact List.cons_ne_nil _ _
    · rw [String.toList_ofList]
      exact List.forall_mem_cons.mpr ⟨inWord, word.inWord⟩
  apart := by
    cases h.apart with
    | singleton => exact .singleton _
    | cons_cons apart others => exact .cons_cons (fun _ => apart word) others

end Cut

/-- A character that can stand in a word is one by itself. -/
theorem isWord_singleton {c : Char} (h : InWord c) : IsWord (String.singleton c) := by
  constructor
  · rw [String.toList_singleton]
    exact List.cons_ne_nil c []
  · intro d hd
    rw [String.toList_singleton, List.mem_singleton] at hd
    exact hd ▸ h

/-- Every text can be cut. -/
theorem exists_cut (text : List Char) : ∃ lead pieces, Cut text lead pieces := by
  induction text with
  | nil => exact ⟨[], [], rfl, nofun, nofun, nofun, .nil⟩
  | cons c rest ih =>
    obtain ⟨lead, pieces, cut⟩ := ih
    by_cases blank : isBlank c = true
    · exact ⟨_, _, cut.blank blank⟩
    by_cases parenthesis : c = '(' ∨ c = ')'
    · rcases parenthesis with rfl | rfl
      · exact ⟨_, _, cut.single (.inl rfl) fun _ _ word => absurd rfl word.not_parenthesis.1⟩
      · exact ⟨_, _, cut.single (.inr (.inl rfl)) fun _ _ word =>
          absurd rfl word.not_parenthesis.2⟩
    have inWord : InWord c := ⟨Bool.not_eq_true _ ▸ blank, not_or.mp parenthesis⟩
    -- The character begins a word of its own, unless a word follows without a blank.
    by_cases joined : lead = [] ∧ ∃ next ∈ pieces.head?, IsWord next.token
    · obtain ⟨rfl, next, first, word⟩ := joined
      obtain ⟨others, rfl⟩ := List.head?_eq_some_iff.mp first
      exact ⟨_, _, cut.inWord word inWord⟩
    · refine ⟨_, _, cut.single (.inr (.inr (isWord_singleton inWord))) ?_⟩
      exact fun next first _ word none => joined ⟨none, next, first, word⟩

/-! ## Texts that are put together -/

/-- Blanks divide a text. -/
theorem ofText_blanks {blanks : String} (blank : AllBlank blanks.toList) (present : blanks ≠ "")
    (text rest : String) : ofText (text ++ blanks ++ rest) = ofText text ++ ofText rest := by
  have present : blanks.toList ≠ [] := fun none => present (String.toList_eq_nil_iff.mp none)
  have ends : EndsWord (blanks.toList ++ rest.toList) :=
    endsWord_of_allBlank blank fun none => absurd none present
  rw [ofText_eq, String.append_assoc, String.toList_append, String.toList_append,
    ofChars_append ends, ofChars_blanks blank, ofText_eq, ofText_eq]

/-- A parenthesis divides a text, whatever blanks stand before and after it. -/
theorem ofText_parenthesis {token before after : String} (parenthesis : token = "(" ∨ token = ")")
    (blank : AllBlank before.toList) (blank' : AllBlank after.toList) (text rest : String) :
    ofText (text ++ (before ++ (token ++ (after ++ rest)))) =
      ofText text ++ token :: ofText rest := by
  have valid : Valid token := parenthesis.imp_right .inl
  have other : ∀ more, EndsWord (token.toList ++ more) := endsWord_token parenthesis
  rw [ofText_eq, String.toList_append, String.toList_append, String.toList_append,
    String.toList_append, ofChars_append (endsWord_of_allBlank blank fun _ => other _),
    ofChars_blanks blank, ofChars_token valid ?_, ofChars_blanks blank', ofText_eq, ofText_eq]
  rintro word
  rcases parenthesis with rfl | rfl
  · exact absurd rfl word.not_parenthesis.1
  · exact absurd rfl word.not_parenthesis.2

/-- The tokens of a text are those of its cuts: there is a cut, and each has these tokens. So a text
that is divided at blanks or at a parenthesis has the tokens of its parts, blanks before and after a
parenthesis do not matter, and any blanks that stand together may be replaced by others. -/
theorem ofText_unique_decomposition :
    (∀ (text : String) (tokens : List String), ofText text = tokens ↔
      ∃ lead pieces, Cut text.toList lead pieces ∧ pieces.map Piece.token = tokens) ∧
    (∀ text blanks rest : String, AllBlank blanks.toList → blanks ≠ "" →
      ofText (text ++ blanks ++ rest) = ofText text ++ ofText rest) ∧
    (∀ text token rest : String, token = "(" ∨ token = ")" →
      ofText (text ++ token ++ rest) = ofText text ++ [token] ++ ofText rest) ∧
    (∀ text token blanks rest : String, token = "(" ∨ token = ")" → AllBlank blanks.toList →
      ofText (text ++ blanks ++ token ++ rest) = ofText (text ++ token ++ rest) ∧
      ofText (text ++ token ++ blanks ++ rest) = ofText (text ++ token ++ rest)) ∧
    (∀ text blanks blanks' rest : String, AllBlank blanks.toList → AllBlank blanks'.toList →
      blanks ≠ "" → blanks' ≠ "" →
      ofText (text ++ blanks ++ rest) = ofText (text ++ blanks' ++ rest)) := by
  have none : AllBlank "".toList := nofun
  have divided : ∀ {token : String}, token = "(" ∨ token = ")" → ∀ text rest,
      ofText (text ++ token ++ rest) = ofText text ++ token :: ofText rest := by
    intro token parenthesis text rest
    have alone := ofText_parenthesis parenthesis none none text rest
    rwa [String.empty_append, String.empty_append, ← String.append_assoc] at alone
  refine ⟨fun text tokens => ⟨?_, ?_⟩, ?_, ?_, ?_, ?_⟩
  · rintro rfl
    obtain ⟨lead, pieces, cut⟩ := exists_cut text.toList
    exact ⟨lead, pieces, cut, cut.tokens_eq.symm⟩
  · rintro ⟨lead, pieces, cut, rfl⟩
    exact cut.tokens_eq
  · exact fun text blanks rest blank present => ofText_blanks blank present text rest
  · intro text token rest parenthesis
    rw [divided parenthesis, List.append_assoc]
    rfl
  · intro text token blanks rest parenthesis blank
    have before := ofText_parenthesis parenthesis blank none text rest
    have after := ofText_parenthesis parenthesis none blank text rest
    rw [String.empty_append] at before after
    rw [divided parenthesis text rest]
    constructor
    · rw [String.append_assoc, String.append_assoc, before]
    · rw [String.append_assoc, String.append_assoc, after]
  · intro text blanks blanks' rest blank blank' present present'
    rw [ofText_blanks blank present, ofText_blanks blank' present']

/-- Words beside parentheses, and two words with blanks of two kinds between them. -/
theorem ofText_unique_decomposition_adjacent :
    let pieces : List Piece :=
      [⟨"a", []⟩, ⟨"(", []⟩, ⟨"b", ['\u2003', '\n']⟩, ⟨"c", []⟩, ⟨")", []⟩]
    Cut " a(b\u2003\nc)".toList [' '] pieces ∧
      ofText " a(b\u2003\nc)" = ["a", "(", "b", "c", ")"] ∧
      AllBlank "\u2003\n".toList ∧
      ofText (" a(b" ++ "\u2003\n" ++ "c)") = ofText " a(b" ++ ofText "c)" ∧
      ofText (" a" ++ "\u2003\n" ++ "(" ++ "b") = ofText (" a" ++ "(" ++ "b") ∧
      ofText (" a" ++ "(" ++ "b") = ofText " a" ++ ["("] ++ ofText "b" := by
  intro pieces
  have blank : AllBlank "\u2003\n".toList :=
    List.forall_mem_cons.mpr ⟨rfl, List.forall_mem_singleton.mpr rfl⟩
  have a : IsWord "a" := @isWord_singleton 'a' ⟨rfl, by decide, by decide⟩
  have b : IsWord "b" := @isWord_singleton 'b' ⟨rfl, by decide, by decide⟩
  have c : IsWord "c" := @isWord_singleton 'c' ⟨rfl, by decide, by decide⟩
  have cut : Cut " a(b\u2003\nc)".toList [' '] pieces := by
    refine ⟨rfl, List.forall_mem_singleton.mpr rfl, ?_, ?_, ?_⟩
    · simp only [pieces, List.forall_mem_cons]
      exact ⟨nofun, nofun, blank, nofun, nofun, nofun⟩
    · simp only [pieces, List.forall_mem_cons]
      exact ⟨.inr (.inr a), .inl rfl, .inr (.inr b), .inr (.inr c), .inr (.inl rfl), nofun⟩
    · refine .cons_cons (fun _ w => absurd rfl w.not_parenthesis.1) ?_
      refine .cons_cons (fun w => absurd rfl w.not_parenthesis.1) ?_
      refine .cons_cons (fun _ _ => List.cons_ne_nil _ _) ?_
      exact .cons_cons (fun _ w => absurd rfl w.not_parenthesis.2) (.singleton _)
  obtain ⟨unique, blanks, parenthesis, around, -⟩ := ofText_unique_decomposition
  exact ⟨cut, (unique _ _).mpr ⟨_, _, cut, rfl⟩, blank, blanks _ _ _ blank (by decide),
    (around _ _ _ _ (.inl rfl) blank).1, parenthesis _ _ _ (.inl rfl)⟩

end DecimalLisp.Token
