import TableQuery.Lexer
import TableQuery.Resolution
import TableQuery.ResultSet
import TableQuery.Statement.Parser

/-! Running statements against a catalog. -/

namespace TableQuery

/-- What every stage of an execution gave, as far as it was reached. -/
structure Trace where
  tokens : Option (List Token)
  statement : Option Statement
  result : Except Diagnostic ResultSet

namespace Catalog

variable (catalog : Catalog)

/-- Answers a statement that has been read. -/
def executeStatement (statement : Statement) : Except Diagnostic ResultSet := do
  let path ← catalog.resolve statement.fromClause.table
  match catalog.rows path with
  | none => .error (.logical (.missingRows path))
  | some records => project records statement.selectClause.columns

/-- Reads and answers a statement; the first fault of any stage rejects it. -/
def execute (text : String) : Except Diagnostic ResultSet := do
  let tokens ← tokensOf text
  let statement ← Statement.ofTokens? tokens
  catalog.executeStatement statement

/-- Reads and answers a statement and keeps what every stage gave. -/
def trace (text : String) : Trace :=
  match tokensOf text with
  | .error diagnostic => { tokens := none, statement := none, result := .error diagnostic }
  | .ok tokens =>
      match Statement.ofTokens? tokens with
      | .error diagnostic =>
          { tokens := some tokens, statement := none, result := .error diagnostic }
      | .ok statement => {
          tokens := some tokens
          statement := some statement
          result := catalog.executeStatement statement
        }

end Catalog

end TableQuery
