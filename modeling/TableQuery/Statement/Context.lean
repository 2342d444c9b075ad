import TableQuery.Statement.Tree

/-! What a parser remembers of its way through the grammar.
Completion starts from it, so it is kept after a failure too.
-/

namespace TableQuery

/-- The two grammar rules entered last, and the table reference as far as it was parsed. -/
structure ParseContext where
  current : Option NodeKind := none
  previous : Option NodeKind := none
  table : Option TableRef := none
deriving DecidableEq

namespace ParseContext

/-- Records that a grammar rule is entered. -/
def enter (rule : NodeKind) (context : ParseContext) : ParseContext :=
  { context with current := some rule, previous := context.current }

/-- The list that parsing stopped in, if it stopped in one.
A column belongs to the column list where that list or another column was entered before it.
-/
def stoppedIn (context : ParseContext) : Option NodeKind :=
  match context.current, context.previous with
  | some .columnList, _
  | some .column, some .columnList
  | some .column, some .column => some .columnList
  | some .table, _ => some .table
  | _, _ => none

end ParseContext

end TableQuery
