import DecimalLisp.Decimal.Numeral

/-!
# Grammar of numerals

A numeral is a sign or none, digits with at most one point among or around them and at least
one digit, and an exponent or none. The rules say at the same time what is written; reading a
text gives a numeral exactly when the rules derive it. Digits may be of any script.
-/

namespace DecimalLisp

namespace Text

/-- A text of digits, with the worth of each. -/
def Worth (text : List Char) (digits : List Nat) : Prop :=
  text.map digitValue? = digits.map some

/-- A text that does not go on with a digit. -/
def EndsDigits (text : List Char) : Prop :=
  ∀ c ∈ text.head?, digitValue? c = none

theorem Worth.nil : Worth [] [] := rfl

theorem Worth.cons {c : Char} {n : Nat} {text : List Char} {digits : List Nat}
    (first : digitValue? c = some n) (h : Worth text digits) : Worth (c :: text) (n :: digits) := by
  rw [Worth, List.map_cons, List.map_cons, first, h]

/-- There are as many digits as characters. -/
theorem Worth.length_eq {text : List Char} {digits : List Nat} (h : Worth text digits) :
    digits.length = text.length := by
  have lengths := congrArg List.length h
  rw [List.length_map, List.length_map] at lengths
  exact lengths.symm

/-- The digits at the front are taken as far as they go. -/
theorem takeDigits_append {text rest : List Char} {digits : List Nat} (h : Worth text digits)
    (ends : EndsDigits rest) : takeDigits (text ++ rest) = (digits, rest) := by
  induction text generalizing digits with
  | nil =>
    have none : digits = [] := List.length_eq_zero_iff.mp h.length_eq
    rw [none, List.nil_append]
    cases rest with
    | nil => rfl
    | cons c rest =>
      rw [takeDigits, ends c rfl]
  | cons c text ih =>
    cases digits with
    | nil => cases h
    | cons n digits =>
      rw [Worth, List.map_cons, List.map_cons, List.cons.injEq] at h
      rw [List.cons_append, takeDigits, h.1]
      dsimp only
      rw [ih h.2]

/-- What is taken from the front are digits, and none follows. -/
theorem takeDigits_spec (text : List Char) :
    ∃ front, text = front ++ (takeDigits text).2 ∧ Worth front (takeDigits text).1 ∧
      EndsDigits (takeDigits text).2 := by
  induction text with
  | nil => exact ⟨[], rfl, rfl, nofun⟩
  | cons c rest ih =>
    rw [takeDigits]
    split
    · next other =>
      refine ⟨[], rfl, rfl, fun d hd => ?_⟩
      cases hd
      exact other
    · next n digit =>
      obtain ⟨front, split, worth, ends⟩ := ih
      exact ⟨c :: front, congrArg (c :: ·) split, worth.cons digit, ends⟩

/-- Signs, the point and the marks of an exponent are no digits. -/
theorem digitValue?_mark {c : Char} (h : c = '+' ∨ c = '-' ∨ c = '.' ∨ c = 'e' ∨ c = 'E') :
    digitValue? c = none := by
  rcases h with rfl | rfl | rfl | rfl | rfl <;> decide

end Text

namespace Numeral

open Text

/-- A sign or none, and whether it is a minus. -/
inductive WritesSign : List Char → Bool → Prop where
  | none : WritesSign [] false
  | plus : WritesSign ['+'] false
  | minus : WritesSign ['-'] true

/-- Digits with a point or none, at least one digit in all: those before the point and those
after it. -/
inductive WritesDigits : List Char → List Nat → List Nat → Prop where
  | whole {text digits} : Worth text digits → digits ≠ [] → WritesDigits text digits []
  | pointed {text digits text' digits'} : Worth text digits → digits ≠ [] →
      Worth text' digits' → WritesDigits (text ++ '.' :: text') digits digits'
  | fraction {text digits} : Worth text digits → digits ≠ [] →
      WritesDigits ('.' :: text) [] digits

/-- An exponent or none, and its value. -/
inductive WritesExponent : List Char → Int → Prop where
  | none : WritesExponent [] 0
  | written {mark sign negative text digits} : mark = 'e' ∨ mark = 'E' →
      WritesSign sign negative → Worth text digits → digits ≠ [] →
      WritesExponent (mark :: (sign ++ text))
        (if negative then -(ofDigits digits : Int) else ofDigits digits)

/-- The grammar of numerals. -/
inductive Written : List Char → Numeral → Prop where
  | parts {sign negative digits whole fraction tail exponent} : WritesSign sign negative →
      WritesDigits digits whole fraction → WritesExponent tail exponent →
      Written (sign ++ (digits ++ tail)) ⟨negative, whole, fraction, exponent⟩

/-- A text that does not go on with a sign. -/
def EndsSign (text : List Char) : Prop :=
  ∀ c ∈ text.head?, c ≠ '-' ∧ c ≠ '+'

/-- Digits are no signs. -/
theorem endsSign_of_worth {text : List Char} {digits : List Nat} (h : Worth text digits)
    (present : digits ≠ []) (rest : List Char) : EndsSign (text ++ rest) := by
  intro c hc
  cases text with
  | nil => exact absurd (List.length_eq_zero_iff.mp h.length_eq) present
  | cons d text =>
    cases hc
    cases digits with
    | nil => exact absurd rfl present
    | cons n digits =>
      rw [Worth, List.map_cons, List.map_cons, List.cons.injEq] at h
      constructor <;> rintro rfl
      · rw [digitValue?_mark (by decide)] at h
        cases h.1
      · rw [digitValue?_mark (by decide)] at h
        cases h.1

/-- Digits with a point begin with no sign. -/
theorem WritesDigits.endsSign {text : List Char} {whole fraction : List Nat}
    (h : WritesDigits text whole fraction) (rest : List Char) : EndsSign (text ++ rest) := by
  cases h with
  | whole worth present => exact endsSign_of_worth worth present rest
  | pointed worth present _ =>
    rw [List.append_assoc]
    exact endsSign_of_worth worth present _
  | fraction _ _ =>
    intro c hc
    cases hc
    exact ⟨by decide, by decide⟩

/-- An exponent begins with no digit. -/
theorem WritesExponent.endsDigits {text : List Char} {exponent : Int}
    (h : WritesExponent text exponent) : EndsDigits text := by
  intro c hc
  cases h with
  | none => cases hc
  | written mark _ _ _ =>
    cases hc
    rcases mark with rfl | rfl
    · exact digitValue?_mark (by decide)
    · exact digitValue?_mark (by decide)

/-- An exponent does not begin with a point. -/
theorem WritesExponent.not_point {text rest : List Char} {exponent : Int}
    (h : WritesExponent text exponent) : text ≠ '.' :: rest := by
  rintro rfl
  cases h with
  | written mark _ _ _ => rcases mark with h | h <;> cases h

/-- A point is no digit. -/
theorem endsDigits_point (rest : List Char) : EndsDigits ('.' :: rest) := by
  intro c hc
  cases hc
  exact digitValue?_mark (by decide)

/-- A written sign is taken. -/
theorem takeSign_append {sign rest : List Char} {negative : Bool} (h : WritesSign sign negative)
    (ends : EndsSign rest) : takeSign (sign ++ rest) = (negative, rest) := by
  cases h with
  | plus => rfl
  | minus => rfl
  | none =>
    rw [List.nil_append]
    unfold takeSign
    split
    · exact absurd rfl (ends '-' rfl).1
    · exact absurd rfl (ends '+' rfl).2
    · rfl

/-- What is taken for a sign is one. -/
theorem takeSign_spec (text : List Char) :
    ∃ sign, text = sign ++ (takeSign text).2 ∧ WritesSign sign (takeSign text).1 := by
  unfold takeSign
  split
  · exact ⟨['-'], rfl, .minus⟩
  · exact ⟨['+'], rfl, .plus⟩
  · exact ⟨[], rfl, .none⟩

/-- Written digits are taken with their point. -/
theorem takePointed_append {text rest : List Char} {whole fraction : List Nat}
    (h : WritesDigits text whole fraction) (ends : EndsDigits rest)
    (point : ∀ more, rest ≠ '.' :: more) :
    takePointed (text ++ rest) = (whole, fraction, rest) := by
  cases h with
  | whole worth _ =>
    rw [takePointed, takeDigits_append worth ends]
    dsimp only
    split
    · next more => exact absurd rfl (point more)
    · rfl
  | @pointed front digits back digits' worth _ worth' =>
    rw [takePointed, List.append_assoc, List.cons_append,
      takeDigits_append worth (endsDigits_point _)]
    change (whole, takeDigits (back ++ rest)) = _
    rw [takeDigits_append worth' ends]
  | @fraction back digits worth _ =>
    have none := takeDigits_append Worth.nil (endsDigits_point (back ++ rest))
    rw [takePointed, List.cons_append]
    rw [List.nil_append] at none
    rw [none]
    change ([], takeDigits (back ++ rest)) = _
    rw [takeDigits_append worth ends]

/-- What is taken for digits are digits with a point or none, unless there is no digit. -/
theorem takePointed_spec {text rest : List Char} {whole fraction : List Nat}
    (h : takePointed text = (whole, fraction, rest)) (present : ¬ (whole = [] ∧ fraction = [])) :
    ∃ digits, text = digits ++ rest ∧ WritesDigits digits whole fraction := by
  obtain ⟨front, split, worth, -⟩ := takeDigits_spec text
  unfold takePointed at h
  cases taken : takeDigits text with
  | mk whole' after =>
    rw [taken] at h split worth
    dsimp only at h split worth
    split at h
    · next back =>
      obtain ⟨rfl, taken'⟩ := Prod.mk.inj h
      obtain ⟨front', split', worth', -⟩ := takeDigits_spec back
      rw [taken'] at split' worth'
      refine ⟨front ++ '.' :: front', ?_, ?_⟩
      · rw [split, List.append_assoc, List.cons_append, ← split']
      · by_cases none : whole' = []
        · have empty : front = [] := by
            rw [none] at worth
            exact List.length_eq_zero_iff.mp worth.length_eq.symm
          rw [none, empty, List.nil_append]
          exact .fraction worth' fun none' => present ⟨none, none'⟩
        · exact .pointed worth none worth'
    · cases h
      exact ⟨front, split, .whole worth fun none => present ⟨none, rfl⟩⟩

/-- An exponent is read exactly when the rules derive it. -/
theorem exponent?_eq_some_iff {text : List Char} {exponent : Int} :
    exponent? text = some exponent ↔ WritesExponent text exponent := by
  constructor
  · intro h
    cases text with
    | nil =>
      cases h
      exact .none
    | cons mark rest =>
      rw [exponent?] at h
      split at h
      · next marked =>
        obtain ⟨sign, split, writes⟩ := takeSign_spec rest
        cases signed : takeSign rest with
        | mk negative back =>
          rw [signed] at h split writes
          obtain ⟨front, split', worth, -⟩ := takeDigits_spec back
          dsimp only at h split writes
          split at h
          · cases h
          · next digits present taken =>
            cases h
            rw [taken] at split' worth
            dsimp only at split'
            rw [split, split', List.append_nil]
            exact .written marked writes worth present
          · cases h
      · cases h
  · intro h
    cases h with
    | none => rfl
    | @written mark sign negative digits worths marked writes worth present =>
      have ends : EndsSign digits := by
        have := endsSign_of_worth worth present []
        rwa [List.append_nil] at this
      have none : EndsDigits [] := nofun
      have all := takeDigits_append worth none
      rw [List.append_nil] at all
      rw [exponent?, if_pos marked, takeSign_append writes ends]
      dsimp only
      rw [all]
      cases worths with
      | nil => exact absurd rfl present
      | cons => rfl

/-- A text is read as a numeral exactly when the grammar derives it. -/
theorem ofText?_eq_some_iff {text : List Char} {n : Numeral} :
    ofText? text = some n ↔ Written text n := by
  constructor
  · intro h
    obtain ⟨sign, split, writes⟩ := takeSign_spec text
    rw [ofText?] at h
    cases signed : takeSign text with
    | mk negative back =>
      rw [signed] at h split writes
      dsimp only at h split writes
      cases taken : takePointed back with
      | mk whole more =>
        obtain ⟨fraction, rest⟩ := more
        rw [taken] at h
        dsimp only at h
        split at h
        · cases h
        · next present =>
          obtain ⟨exponent, read, rfl⟩ := Option.map_eq_some_iff.mp h
          obtain ⟨digits, split', writes'⟩ := takePointed_spec taken present
          rw [split, split']
          exact .parts writes writes' (exponent?_eq_some_iff.mp read)
  · intro h
    cases h with
    | @parts sign negative digits whole fraction tail exponent writes writes' writes'' =>
      have present : ¬ (whole = [] ∧ fraction = []) := by
        rintro ⟨rfl, rfl⟩
        cases writes' with
        | whole _ present => exact present rfl
        | pointed _ present _ => exact present rfl
        | fraction _ present => exact present rfl
      rw [ofText?, takeSign_append writes (writes'.endsSign tail)]
      dsimp only
      rw [takePointed_append writes' writes''.endsDigits fun _ => writes''.not_point]
      dsimp only
      rw [if_neg present, exponent?_eq_some_iff.mpr writes'']
      rfl

end Numeral

end DecimalLisp
