/-! Line and column spans of statement text.
Positions are compared by line and then by column, so merging two spans keeps the earlier
start and the later stop.
-/

namespace TableQuery

/-- A line and a column, both counted from one.
The index −1 stands for a place that does not exist.
-/
@[ext]
structure Position where
  line : Int
  column : Int
  line_ge : -1 ≤ line := by omega
  column_ge : -1 ≤ column := by omega
deriving DecidableEq

namespace Position

/-- Where every text begins. -/
def first : Position where
  line := 1
  column := 1

/-- The place of what follows one character: a newline opens the next line, and every other
character takes one column.
-/
def next (position : Position) (c : Char) : Position :=
  have := position.line_ge
  have := position.column_ge
  if c = '\n' then
    { line := position.line + 1, column := 1 }
  else
    { line := position.line, column := position.column + 1 }

/-- The place of what follows a whole text. -/
def advance (position : Position) (text : List Char) : Position :=
  text.foldl next position

@[simp]
theorem advance_nil (position : Position) : position.advance [] = position := rfl

@[simp]
theorem advance_cons (position : Position) (c : Char) (text : List Char)
    : position.advance (c :: text) = (position.next c).advance text := rfl

/-- Advancing over two texts is advancing over one after the other, by the fold. -/
@[simp]
theorem advance_append (position : Position) (left right : List Char)
    : position.advance (left ++ right) = (position.advance left).advance right :=
  List.foldl_append

/-- Lines come first, columns decide within a line. -/
instance : LE Position where
  le left right :=
    left.line < right.line ∨ left.line = right.line ∧ left.column ≤ right.column

instance : DecidableLE Position := fun left right =>
  inferInstanceAs (Decidable (left.line < right.line
    ∨ left.line = right.line ∧ left.column ≤ right.column))

theorem le_def {left right : Position}
    : left ≤ right
      ↔ left.line < right.line ∨ left.line = right.line ∧ left.column ≤ right.column :=
  Iff.rfl

instance : Min Position := minOfLe

instance : Max Position := maxOfLe

end Position

/-- A stretch of text: the start belongs to it and the stop is just behind it. -/
@[ext]
structure Span where
  start : Position
  stop : Position
deriving DecidableEq

/-- An index below −1, which no position can hold. -/
structure InvalidIndex where
  index : Int
deriving DecidableEq

namespace InvalidIndex

def message (fault : InvalidIndex) : String :=
  s!"invalid index '{fault.index}'"

end InvalidIndex

namespace Span

/-- The span reported where the text has ended and nothing is left to point at. -/
def endOfInput : Span where
  start := { line := -1, column := -1 }
  stop := { line := -1, column := -1 }

def isEndOfInput (span : Span) : Bool :=
  span == endOfInput

/-- Builds a span from its four indices and names the first one below −1. -/
def ofIndices (startLine startColumn stopLine stopColumn : Int)
    : Except InvalidIndex Span :=
  if _h₁ : startLine < -1 then .error ⟨startLine⟩
  else if _h₂ : startColumn < -1 then .error ⟨startColumn⟩
  else if _h₃ : stopLine < -1 then .error ⟨stopLine⟩
  else if _h₄ : stopColumn < -1 then .error ⟨stopColumn⟩
  else .ok {
    start := { line := startLine, column := startColumn }
    stop := { line := stopLine, column := stopColumn }
  }

/-- The span from the earlier start to the later stop. -/
def merge (left right : Span) : Span where
  start := min left.start right.start
  stop := max left.stop right.stop

/-- The span that covers all given ones.
End-of-input spans have no place in the text and are left out; nothing is covered where no
other span is given.
-/
def covering (spans : List Span) : Option Span :=
  match spans.filter (fun span => !span.isEndOfInput) with
  | [] => none
  | first :: more => some (more.foldl merge first)

/-- The words by which diagnostics name a span. -/
def display (span : Span) : String :=
  if span.isEndOfInput then
    "at end of input"
  else if span.start.line = span.stop.line then
    s!"at line {span.start.line} from column {span.start.column}"
      ++ s!" to column {span.stop.column}"
  else
    s!"from line {span.start.line}, column {span.start.column}"
      ++ s!" to line {span.stop.line}, column {span.stop.column}"

end Span

end TableQuery
