import TableQuery.Token

/-! Statements of the form `FROM <table> SELECT <columns>`.
Every part keeps the tokens it was read from, so a statement can be read back token by token
and knows its place in the text.
-/

namespace TableQuery

/-- A further name of a table reference, with the dot in front of it. -/
structure DottedPart where
  dot : TokenOf .dot
  part : Identifier
deriving DecidableEq

/-- A table by its last names: the table alone, with its schema, or with its database too. -/
structure TableRef where
  first : Identifier
  more : List DottedPart
deriving DecidableEq

namespace TableRef

/-- A reference of a single name. -/
def single (first : Identifier) : TableRef where
  first
  more := []

/-- The reference with one more name behind it. -/
def push (table : TableRef) (dot : TokenOf .dot) (part : Identifier) : TableRef :=
  { table with more := table.more ++ [{ dot, part }] }

/-- The names of a reference as identifiers, the outermost first. -/
def parts (table : TableRef) : List Identifier :=
  table.first :: table.more.map DottedPart.part

def names (table : TableRef) : List String :=
  table.parts.map TokenOf.name

/-- Names and dots in source order. -/
def tokens (table : TableRef) : List Token :=
  table.first.token :: table.more.flatMap (fun dotted => [dotted.dot.token, dotted.part.token])

/-- The reference as it was written, without its separators. -/
def display (table : TableRef) : String :=
  String.intercalate "." (table.parts.map (fun part => part.token.lexeme))

def span (table : TableRef) : Span :=
  (table.more.map (fun dotted => dotted.part.span)).foldl Span.merge table.first.span

end TableRef

/-- The keyword and the table it names. -/
structure FromClause where
  keyword : TokenOf .fromKeyword
  table : TableRef
deriving DecidableEq

namespace FromClause

def tokens (clause : FromClause) : List Token :=
  clause.keyword.token :: clause.table.tokens

def span (clause : FromClause) : Span :=
  clause.keyword.span.merge clause.table.span

end FromClause

/-- The keyword and the columns it asks for, of which there is at least one. -/
structure SelectClause where
  keyword : TokenOf .selectKeyword
  first : Identifier
  more : List Identifier
deriving DecidableEq

namespace SelectClause

/-- The requested columns in requested order, repeats included. -/
def columns (clause : SelectClause) : List Identifier :=
  clause.first :: clause.more

def names (clause : SelectClause) : List String :=
  clause.columns.map TokenOf.name

def tokens (clause : SelectClause) : List Token :=
  clause.keyword.token :: clause.columns.map TokenOf.token

/-- The place of the column list.
It is the end of input where no column has a place of its own.
-/
def columnsSpan (clause : SelectClause) : Span :=
  (Span.covering (clause.columns.map TokenOf.span)).getD Span.endOfInput

def span (clause : SelectClause) : Span :=
  clause.keyword.span.merge clause.columnsSpan

end SelectClause

/-- A request for columns of a table. -/
structure Statement where
  fromClause : FromClause
  selectClause : SelectClause
deriving DecidableEq

namespace Statement

/-- The tokens of a statement in source order. -/
def tokens (statement : Statement) : List Token :=
  statement.fromClause.tokens ++ statement.selectClause.tokens

def span (statement : Statement) : Span :=
  statement.fromClause.span.merge statement.selectClause.span

end Statement

end TableQuery
