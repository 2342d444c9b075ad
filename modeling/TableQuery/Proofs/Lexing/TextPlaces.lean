import Mathlib.Data.List.DropRight
import Mathlib.Order.Lattice
import TableQuery.Span

/-! Places of a text as offsets into it.
Advancing over a text counts its newlines and the characters behind the last one.  Counting
the lines and columns of a place off again leads back to the same offset, so two places cut
out of a text exactly what was advanced over between them.
-/

namespace TableQuery

/-- The characters behind the last newline of a text. -/
def lastLine (text : List Char) : List Char :=
  text.rtakeWhile (· ≠ '\n')

namespace Position

/-- The offset of a column on the line that is some lines below the first line of a text.
A line has a column for each of its characters and one behind them.
-/
def offsetBelow? (columns : Nat) : Nat → List Char → Option Nat
  | 0, text => if columns ≤ (text.takeWhile (· ≠ '\n')).length then some columns else none
  | lines + 1, text =>
      match text.dropWhile (· ≠ '\n') with
      | [] => none
      | _ :: below =>
          (offsetBelow? columns lines below).map
            ((text.takeWhile (· ≠ '\n')).length + 1 + ·)

/-- The offset of a place in a text, if the text has the place. -/
def offset? (text : List Char) (position : Position) : Option Nat :=
  if 1 ≤ position.line ∧ 1 ≤ position.column then
    offsetBelow? (position.column - 1).toNat (position.line - 1).toNat text
  else
    none

end Position

/-- The stretch of a text from one of its places to another that is not in front of it. -/
def cutOut? (text : List Char) (start stop : Position) : Option (List Char) := do
  let first ← start.offset? text
  let behind ← stop.offset? text
  if first ≤ behind then some (text.extract first behind) else none

-----------------------------------------------------------------------------------------
-- From offsets to places
-----------------------------------------------------------------------------------------

@[simp]
theorem lastLine_nil : lastLine [] = [] := rfl

theorem ne_newline_of_not_mem {line : List Char} (oneLine : '\n' ∉ line)
    : ∀ c ∈ line, decide (c ≠ '\n') := by
  intro c member
  exact decide_eq_true (fun isNewline => oneLine (isNewline ▸ member))

/-- A text without newlines is its own last line. -/
theorem lastLine_of_not_mem {text : List Char} (oneLine : '\n' ∉ text)
    : lastLine text = text :=
  List.rtakeWhile_eq_self_iff.mpr (ne_newline_of_not_mem oneLine)

/-- The last line begins behind any newline, so nothing in front of one belongs to it. -/
theorem lastLine_append_newline (front rest : List Char)
    : lastLine (front ++ '\n' :: rest) = lastLine rest := by
  have reversed : (front ++ '\n' :: rest).reverse = rest.reverse ++ '\n' :: front.reverse := by
    simp
  rw [lastLine, lastLine, List.rtakeWhile, List.rtakeWhile, reversed, List.takeWhile_append]
  split
  · rename_i oneLine
    rw [(List.takeWhile_prefix (· ≠ '\n')).eq_of_length oneLine]
    simp
  · rfl

theorem length_lastLine_le (text : List Char) : (lastLine text).length ≤ text.length :=
  (List.rtakeWhile_suffix _ text).length_le

namespace Position

/-- Every newline opens a line, by induction over the text. -/
theorem line_advance (position : Position) (text : List Char)
    : (position.advance text).line = position.line + text.count '\n' := by
  induction text generalizing position with
  | nil => simp
  | cons c rest ih =>
      rw [advance_cons, ih, next]
      split
      · rename_i isNewline
        simp only [isNewline, List.count_cons_self]
        omega
      · rename_i other
        rw [List.count_cons_of_ne other]

theorem line_advance_first (text : List Char)
    : (first.advance text).line = 1 + text.count '\n' :=
  line_advance first text

/-- The column counts the characters behind the last newline, by induction from the end. -/
theorem column_advance_first (text : List Char)
    : (first.advance text).column = 1 + (lastLine text).length := by
  induction text using List.reverseRecOn with
  | nil => rfl
  | append_singleton text c ih =>
      rw [advance_append, advance_cons, advance_nil, next, lastLine]
      split
      · rename_i isNewline
        rw [List.rtakeWhile_concat_neg _ _ _ (by simp [isNewline])]
        rfl
      · rename_i other
        rw [List.rtakeWhile_concat_pos _ _ _ (by simp [other]), ← lastLine]
        simp only [ih, List.length_append, List.length_singleton]
        omega

/-- The next place lies behind, on the next line or in the next column. -/
theorem not_next_le (position : Position) (c : Char) : ¬ position.next c ≤ position := by
  rw [le_def, next]
  split <;> simp only <;> omega

theorem le_trans {left middle right : Position} (before : left ≤ middle)
    (behind : middle ≤ right)
    : left ≤ right := by
  simp only [le_def] at before behind ⊢
  omega

/-- Places are ordered line by line and column by column. -/
instance : LinearOrder Position where
  le_refl position := Or.inr ⟨rfl, Int.le_refl _⟩
  le_trans _ _ _ := le_trans
  le_antisymm left right before behind := by
    simp only [le_def] at before behind
    ext <;> omega
  le_total left right := by
    simp only [le_def]
    omega
  toDecidableLE := inferInstance

theorem le_next (position : Position) (c : Char) : position ≤ position.next c := by
  rw [le_def, next]
  split
  · exact Or.inl (Int.lt_succ position.line)
  · exact Or.inr ⟨rfl, Int.le_add_one (Int.le_refl position.column)⟩

/-- Advancing never goes back, by induction over the text. -/
theorem le_advance (position : Position) (text : List Char)
    : position ≤ position.advance text := by
  induction text generalizing position with
  | nil => exact Or.inr ⟨rfl, Int.le_refl _⟩
  | cons c rest ih => exact le_trans (position.le_next c) (ih (position.next c))

/-- Advancing over any character goes forward, because its first step does. -/
theorem not_advance_le (position : Position) {text : List Char} (notEmpty : text ≠ [])
    : ¬ position.advance text ≤ position := by
  cases text with
  | nil => exact absurd rfl notEmpty
  | cons c rest =>
      intro back
      exact not_next_le position c (le_trans (le_advance (position.next c) rest) back)

-----------------------------------------------------------------------------------------
-- From places to offsets
-----------------------------------------------------------------------------------------

/-- A line that ends in front of the sought one is skipped with its newline. -/
theorem offsetBelow?_line (columns lines : Nat) {line : List Char} (oneLine : '\n' ∉ line)
    (below : List Char)
    : offsetBelow? columns (lines + 1) (line ++ '\n' :: below)
      = (offsetBelow? columns lines below).map (line.length + 1 + ·) := by
  have inLine := ne_newline_of_not_mem oneLine
  rw [offsetBelow?, List.dropWhile_append_of_pos inLine, List.takeWhile_append_of_pos inLine]
  simp

/-- Counting the newlines and the last line of a beginning of a text off again takes exactly
this beginning, by induction on the lines.
-/
theorem offsetBelow?_append (before after : List Char)
    : offsetBelow? (lastLine before).length (before.count '\n') (before ++ after)
      = some before.length := by
  generalize counted : before.count '\n' = lines
  induction lines generalizing before with
  | zero =>
      have oneLine := List.count_eq_zero.mp counted
      rw [lastLine_of_not_mem oneLine, offsetBelow?,
        List.takeWhile_append_of_pos (ne_newline_of_not_mem oneLine), if_pos (by simp)]
  | succ lines ih =>
      have newline : '\n' ∈ before := List.count_pos_iff.mp (by omega)
      obtain ⟨line, below, rfl, oneLine⟩ := List.eq_append_cons_of_mem newline
      have countedBelow : below.count '\n' = lines := by
        rw [List.count_append, List.count_eq_zero_of_not_mem oneLine, List.count_cons_self]
          at counted
        omega
      rw [lastLine_append_newline, List.append_assoc, List.cons_append,
        offsetBelow?_line _ _ oneLine, ih below countedBelow]
      simp only [Option.map_some, List.length_append, List.length_cons]
      congr 1
      omega

/-- Where advancing over the beginning of a text leads, this beginning is in front. -/
theorem offset?_advance (before after : List Char)
    : (first.advance before).offset? (before ++ after) = some before.length := by
  have placed : 1 ≤ (first.advance before).line ∧ 1 ≤ (first.advance before).column := by
    rw [line_advance_first, column_advance_first]
    omega
  have lines : ((first.advance before).line - 1).toNat = before.count '\n' := by
    rw [line_advance_first]
    omega
  have columns : ((first.advance before).column - 1).toNat = (lastLine before).length := by
    rw [column_advance_first]
    omega
  rw [offset?, if_pos placed, lines, columns, offsetBelow?_append]

end Position

/-- What was advanced over between two places is cut out between them. -/
theorem cutOut?_advance (before piece after : List Char)
    : cutOut? (before ++ piece ++ after) (Position.first.advance before)
        (Position.first.advance (before ++ piece))
      = some piece := by
  have start := Position.offset?_advance before (piece ++ after)
  have stop := Position.offset?_advance (before ++ piece) after
  rw [← List.append_assoc] at start
  rw [cutOut?, start, stop]
  simp

/-- What is cut out from the end of one line on begins with the newline behind it. -/
example
    : cutOut? "ab\nc".toList { line := 1, column := 3 } { line := 2, column := 2 }
      = some "\nc".toList := by
  decide

end TableQuery
