import TableQuery.Statement

/-! Syntax trees of statements and their drawing.
A drawing has one entry for each node.  Names are shown as they were written, so an entry
may itself run over several lines of output.
-/

namespace TableQuery

/-- The grammar rules that a statement is made of. -/
inductive NodeKind where
  | statement
  | fromClause
  | table
  | selectClause
  | columnList
  | column
deriving DecidableEq

namespace NodeKind

def name : NodeKind → String
  | statement => "STATEMENT"
  | fromClause => "FROM"
  | table => "TABLE"
  | selectClause => "SELECT"
  | columnList => "COLUMN LIST"
  | column => "COLUMN"

end NodeKind

/-- A statement as a tree of grammar rules over tokens. -/
inductive SyntaxTree where
  | leaf (token : Token)
  | branch (kind : NodeKind) (children : List SyntaxTree)

namespace SyntaxTree

/-- Puts one mark before the first entry and another before all below it. -/
def hang (mark markBelow : String) : List String → List String
  | [] => []
  | root :: below => (mark ++ root) :: below.map (markBelow ++ ·)

mutual

/-- The entries of a drawing, the root's own entry first. -/
def entries : SyntaxTree → List String
  | leaf token => [token.display]
  | branch kind children => kind.name :: entriesBelow children

/-- The entries of a node's children: each but the last hangs on a line that goes on. -/
def entriesBelow : List SyntaxTree → List String
  | [] => []
  | [last] => hang "└── " "    " last.entries
  | child :: next :: rest =>
      hang "├── " "│   " child.entries ++ entriesBelow (next :: rest)

end

/-- The drawing with each entry on a line of its own. -/
def render (tree : SyntaxTree) : String :=
  String.join (tree.entries.map (· ++ "\n"))

end SyntaxTree

namespace Statement

/-- The grammar rules by which a statement was read. -/
def tree (statement : Statement) : SyntaxTree :=
  let fromClause := statement.fromClause
  let selectClause := statement.selectClause
  .branch .statement [
    .branch .fromClause [
      .leaf fromClause.keyword.token,
      .branch .table (fromClause.table.tokens.map .leaf)],
    .branch .selectClause [
      .leaf selectClause.keyword.token,
      .branch .columnList
        (selectClause.columns.map (fun column => .branch .column [.leaf column.token]))]]

/-- The drawing of a statement's syntax tree. -/
def display (statement : Statement) : String :=
  statement.tree.render

end Statement

end TableQuery
