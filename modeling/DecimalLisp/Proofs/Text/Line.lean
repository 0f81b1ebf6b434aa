import DecimalLisp.Text.Line
import Mathlib.Data.List.Basic

/-!
# Cutting a text into lines

A text is cut after each line feed and nowhere else. What comes after the last line feed is a line
if there is anything. There is one way to cut a text like this, and the lines of a text are what one
gets by it.
-/

namespace DecimalLisp.Text

/-- Lines that a text is cut into. -/
inductive IsLines : List Char → List (List Char) → Prop where
  /-- An empty text has no lines. -/
  | none : IsLines [] []
  /-- The last line may lack a line feed, and then something stands on it. -/
  | unended {line} : '\n' ∉ line → line ≠ [] → IsLines line [line]
  /-- Every other line ends with its only line feed. -/
  | ended {line rest lines} : '\n' ∉ line → IsLines rest lines →
      IsLines (line ++ '\n' :: rest) ((line ++ ['\n']) :: lines)

variable {text line rest : List Char} {cut : List (List Char)}

/-- A text without a line feed is one line. -/
theorem lines_of_not_mem (single : '\n' ∉ line) (present : line ≠ []) : lines line = [line] := by
  induction line with
  | nil => exact absurd rfl present
  | cons c more ih =>
    rw [List.mem_cons, not_or] at single
    rw [lines, if_neg (Ne.symm single.1)]
    cases more with
    | nil => rfl
    | cons d others => rw [ih single.2 (List.cons_ne_nil d others)]

/-- The first line ends with the first line feed. -/
theorem lines_append (single : '\n' ∉ line) (rest : List Char) :
    lines (line ++ '\n' :: rest) = (line ++ ['\n']) :: lines rest := by
  induction line with
  | nil => rfl
  | cons c more ih =>
    rw [List.mem_cons, not_or] at single
    rw [List.cons_append, lines, if_neg (Ne.symm single.1), ih single.2]
    rfl

/-- What comes after a line feed is cut by itself. -/
theorem lines_append_feed (front back : List Char) :
    lines (front ++ '\n' :: back) = lines (front ++ ['\n']) ++ lines back := by
  induction front with
  | nil => rfl
  | cons c front ih =>
    rw [List.cons_append, List.cons_append, lines, lines, ih]
    split
    · rfl
    · cases first : lines (front ++ ['\n']) with
      | nil =>
        have none := flatten_lines (front ++ ['\n'])
        rw [first] at none
        exact absurd none.symm (List.append_ne_nil_of_right_ne_nil front (List.cons_ne_nil _ _))
      | cons line others => rfl

/-- A text can be cut into its lines. -/
theorem isLines_lines (text : List Char) : IsLines text (lines text) := by
  induction text with
  | nil => exact .none
  | cons c rest ih =>
    rw [lines]
    split
    · next feed =>
      subst feed
      have single : '\n' ∉ ([] : List Char) := List.not_mem_nil
      exact .ended single ih
    · next other =>
      have apart : '\n' ≠ c := Ne.symm other
      generalize lines rest = cut at ih ⊢
      cases ih with
      | none => exact .unended (by simpa using apart) (List.cons_ne_nil c [])
      | unended single _ => exact .unended (by simp [apart, single]) (List.cons_ne_nil c _)
      | @ended line rest lines single later =>
        have single' : '\n' ∉ c :: line := by simp [apart, single]
        exact .ended single' later

/-- There is no other way to cut a text. -/
theorem isLines_iff : IsLines text cut ↔ cut = lines text := by
  constructor
  · intro h
    induction h with
    | none => rfl
    | unended single present => exact (lines_of_not_mem single present).symm
    | ended single _ ih => rw [lines_append single, ih]
  · rintro rfl
    exact isLines_lines text

end DecimalLisp.Text
