import DecimalLisp.Proofs.Atom
import DecimalLisp.Proofs.Repl

/-!
# Numerals that no number can carry

A numeral means a number exactly, but its first and its last digit may stand too far from the point
for any number. Such a numeral is not reported as one that is out of range, because there is no
number whose range could be looked at. It is the only thing in a text that makes the reader fail in
a way that is not reported, and so the only thing that ends a conversation before its input ends. A
zero is no exception: only the exponent that it is written with counts.
-/

namespace DecimalLisp

open Reader Token

/-- A token is a numeral that no number can carry. -/
def Uncarried (token : String) : Prop :=
  ∃ n, Numeral.Written token.toList n ∧ n.number.representable = false

namespace Reader

variable {token : String}

/-- A word stands for nothing only if it is a numeral out of range, or one that no number can
carry. -/
theorem atom_fault {fault : ReadFault} (h : atom token = .error fault) :
    fault = .outOfRange token ∨ Uncarried token ∧ fault = .unrepresentable token := by
  by_cases numeral : ∃ n, Numeral.Written token.toList n
  · obtain ⟨n, written⟩ := numeral
    rw [atom_of_written written] at h
    split at h
    · next uncarried =>
      cases h
      exact .inr ⟨⟨n, written, uncarried⟩, rfl⟩
    · split at h <;> cases h
      exact .inl rfl
  · rw [atom_of_not_written (not_exists.mp numeral)] at h
    cases h

/-- What goes wrong in reading tokens is malformed, or a numeral among them is one that no number
can carry. -/
theorem fault_of_readInside {tokens : List String} (valid : ∀ token ∈ tokens, Valid token)
    {opened : List (List Value)} {fault : ReadFault}
    (h : (readInside opened tokens).result = .error fault) :
    fault.kind = .malformed ∨
      ∃ token ∈ tokens, Uncarried token ∧ fault = .unrepresentable token := by
  induction tokens generalizing opened with
  | nil =>
    cases h
    exact .inl rfl
  | cons token rest ih =>
    obtain ⟨first, others⟩ := List.forall_mem_cons.mp valid
    -- What goes wrong after a value was delivered goes wrong in the tokens that are left.
    have later : ∀ {opened : List (List Value)},
        (readInside opened rest).result = .error fault → fault.kind = .malformed ∨
          ∃ t ∈ token :: rest, Uncarried t ∧ fault = .unrepresentable t := by
      intro opened h
      refine (ih others h).imp_right ?_
      rintro ⟨t, mem, found⟩
      exact ⟨t, List.mem_cons_of_mem _ mem, found⟩
    have delivered : ∀ {opened : List (List Value)} {v : Value},
        (deliver opened v rest).result = .error fault → fault.kind = .malformed ∨
          ∃ t ∈ token :: rest, Uncarried t ∧ fault = .unrepresentable t := by
      intro opened v h
      cases opened with
      | nil => cases h
      | cons items others => exact later h
    rcases first with rfl | rfl | word
    · rw [readInside_open] at h
      exact later h
    · cases opened with
      | nil =>
        cases h
        exact .inl rfl
      | cons items others =>
        rw [readInside_close] at h
        exact delivered h
    · cases read : atom token with
      | ok v =>
        rw [readInside_atom word.not_parenthesis read] at h
        exact delivered h
      | error cause =>
        rw [readInside_fault word.not_parenthesis read] at h
        cases h
        rcases atom_fault read with rfl | ⟨uncarried, rfl⟩
        · exact .inl rfl
        · exact .inr ⟨token, List.mem_cons_self, uncarried, rfl⟩

end Reader

open Repl

/-- A token that is a numeral is read as its number, or it is out of range, or no number can carry
it. A text is read, or what goes wrong is malformed, or a numeral in it is one that no number can
carry. A conversation whose evaluations all end comes to the end of its input if and only if no
line is unreadable by such a numeral. -/
theorem uncarried_alone_stop (token text : String) (p : Precision) (prompt input : String)
    {cut : List (List Char)} (cuts : Text.IsLines input.toList cut) {bound : ℕ}
    (ends : ((Session.standard p).answersWithin bound
      (spoken (cut.map String.ofList))).isSome = true) :
    (∀ n, Numeral.Written token.toList n → atom token =
      if n.number.representable = false then .error (.unrepresentable token)
      else if n.number.coeff ≠ 0 ∧ Decimal.maxAdjusted < n.number.adjusted.natAbs then
        .error (.outOfRange token)
      else .ok (.number n.number)) ∧
    (∀ fault, parse text = .error fault → fault.kind = .malformed ∨
      ∃ token ∈ ofText text, Uncarried token ∧ fault = .unrepresentable token) ∧
    ((run (Session.standard p) bound prompt input).2 = .endOfInput ↔
      ∀ line ∈ cut.map String.ofList, ¬ Unreadable line) := by
  refine ⟨fun n written => atom_of_written written,
    fun fault read => fault_of_readInside (fun _ => valid_of_mem_ofText) read, ?_⟩
  constructor
  · intro ended line mem unreadable
    -- The conversation has stopped at the first line that is unreadable.
    classical
    have present : ((cut.map String.ofList).find? fun line => decide (Unreadable line)).isSome =
        true := List.find?_isSome.mpr ⟨line, mem, decide_eq_true unreadable⟩
    obtain ⟨first, found⟩ := Option.isSome_iff_exists.mp present
    obtain ⟨stops, before, after, split, readable⟩ := List.find?_eq_some_iff_append.mp found
    obtain ⟨token, read⟩ := of_decide_eq_true stops
    rw [split, spoken, List.filter_append] at ends
    obtain ⟨⟨answers, session⟩, come⟩ :=
      Option.isSome_iff_exists.mp (Session.answersWithin_prefix ends)
    obtain ⟨log, stopped⟩ := run_stopped cuts split
      (fun line mem => by simpa using readable line mem) read come prompt
    rw [stopped] at ended
    cases ended
  · intro readable
    obtain ⟨⟨answers, session⟩, come⟩ := Option.isSome_iff_exists.mp ends
    obtain ⟨log, ended⟩ := run_answered cuts readable come prompt
    rw [ended]

/-- A numeral that is out of range is answered, and the conversation goes on to its end. -/
theorem uncarried_alone_stop_range :
    let n : Numeral := ⟨false, [1], [], 1000000⟩
    let cut := ["1e1000000\n".toList, "2\n".toList]
    Numeral.Written "1e1000000".toList n ∧
      atom "1e1000000" = .error (.outOfRange "1e1000000") ∧
      parse "1e1000000\n" = .error (.outOfRange "1e1000000") ∧
      ((ReadFault.outOfRange "1e1000000").kind = .malformed ∨
        ∃ token ∈ ofText "1e1000000\n", Uncarried token ∧
          ReadFault.outOfRange "1e1000000" = .unrepresentable token) ∧
      Text.IsLines "1e1000000\n2\n".toList cut ∧
      ((Session.standard .standard).answersWithin 2
        (spoken (cut.map String.ofList))).isSome = true ∧
      (run (Session.standard .standard) 2 "> " "1e1000000\n2\n").2 = .endOfInput := by
  intro n cut
  have written : Numeral.Written "1e1000000".toList n :=
    Numeral.ofText?_eq_some_iff.mp (by decide)
  have read : parse "1e1000000\n" = .error (.outOfRange "1e1000000") := rfl
  have cuts : Text.IsLines "1e1000000\n2\n".toList cut := Text.isLines_iff.mpr (by decide)
  have ends : ((Session.standard .standard).answersWithin 2
      (spoken (cut.map String.ofList))).isSome = true := by decide +kernel
  have readable : ∀ line ∈ cut.map String.ofList, ¬ Unreadable line := by
    rintro line mem ⟨token, unreadable⟩
    simp only [cut, List.map_cons, List.map_nil, String.ofList_toList, List.mem_cons,
      List.not_mem_nil, or_false] at mem
    rcases mem with rfl | rfl
    · rw [read] at unreadable
      cases unreadable
    · have two : parse "2\n" = .ok (.number (.ofNat 2)) := rfl
      rw [two] at unreadable
      cases unreadable
  obtain ⟨tokens, texts, conversations⟩ :=
    uncarried_alone_stop "1e1000000" "1e1000000\n" .standard "> " _ cuts ends
  have large : atom "1e1000000" = .error (.outOfRange "1e1000000") := by
    rw [tokens n written, if_neg (by decide), if_pos (by decide)]
  exact ⟨written, large, read, texts _ read, cuts, ends, conversations.mpr readable⟩

/-- A numeral that no number can carry is not reported as malformed, be it a zero or not, and it
ends the conversation before the next line. -/
theorem uncarried_not_reported :
    (∃ fault, parse "1e1000000000000000000" = .error fault ∧ fault.kind ≠ .malformed) ∧
      (∃ fault, atom "0e1000000000000000000" = .error fault ∧ fault.kind ≠ .malformed) ∧
      ∃ fault, (run (Session.standard .standard) 2 "> " "1e1000000000000000000\n2\n").2 =
        .stopped fault := by
  have read : parse "1e1000000000000000000" =
      .error (.unrepresentable "1e1000000000000000000") := rfl
  have zero : atom "0e1000000000000000000" =
      .error (.unrepresentable "0e1000000000000000000") := rfl
  exact ⟨⟨_, read, by decide⟩, ⟨_, zero, by decide⟩, ⟨_, rfl⟩⟩

end DecimalLisp
