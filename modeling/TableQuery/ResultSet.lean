import TableQuery.Catalog
import TableQuery.Diagnostic
import TableQuery.Json.Library

/-! Rows of requested columns.
Projection is all or nothing: one stored row without a requested column rejects the request.
-/

namespace TableQuery

/-- One row of an answer: requested columns and their values in requested order. -/
structure Row where
  values : List (String × Json)

namespace Row

/-- The value of a column, if it was requested. -/
def get? (row : Row) (column : String) : Option Json :=
  (row.values.find? (fun entry => entry.1 == column)).map Prod.snd

def columns (row : Row) : List String :=
  row.values.map Prod.fst

/-- The row with its values as the JSON library shows them, in braces. -/
def display (library : JsonLibrary) (row : Row) : String :=
  let fields := row.values.map (fun (name, value) => s!"{name}: {library.display value}")
  "\x7b" ++ String.intercalate ", " fields ++ "\x7d"

end Row

/-- The rows that answer a statement, and the names that were asked for. -/
structure ResultSet where
  columns : List String
  rows : List Row

namespace ResultSet

/-- The rows as objects, which keep the requested order and its repeats. -/
def toJson (result : ResultSet) : Json :=
  .array (result.rows.map (fun row => .object row.values))

/-- The rows, each on a line of its own. -/
def display (library : JsonLibrary) (result : ResultSet) : String :=
  String.join (result.rows.map (fun row => row.display library ++ "\n"))

end ResultSet

/-- The value of one requested column in a stored row. -/
def Record.value (record : Record) (column : Identifier)
    : Except Diagnostic (String × Json) :=
  match record.get? column.name with
  | some value => .ok (column.name, value)
  | none => .error (.semantic (.unknownColumn column.name) (some column.span))

/-- The requested columns of every stored row, or the first that is missing. -/
def project (records : List Record) (columns : List Identifier)
    : Except Diagnostic ResultSet := do
  let rows ← records.mapM (fun record => Row.mk <$> columns.mapM record.value)
  return { columns := columns.map TokenOf.name, rows }

end TableQuery
