import TableQuery.Catalog
import TableQuery.Diagnostic
import TableQuery.Statement

/-! Finding the table that a reference means.
The shortest reference that is not ambiguous is enough: a table alone has to be the only one
of its name, a schema has to be the only one of its name, and a full path is looked up
directly.  Ambiguity is always an error.
-/

namespace TableQuery

namespace Catalog

variable (catalog : Catalog)

/-- Whether a schema of a database lists a table. -/
def hasTable (database schema table : String) : Bool :=
  ((catalog.tables database schema).getD []).contains table

/-- Whether a database lists a schema. -/
def hasSchema (database schema : String) : Bool :=
  ((catalog.schemas database).getD []).contains schema

/-- The places of all tables of one name.
A schema counts as often as it is listed.
-/
def pathsOfTable (table : String) : List TablePath :=
  catalog.databases.flatMap (fun database =>
    (((catalog.schemas database).getD []).filter
        (fun schema => catalog.hasTable database schema table)).map
      (fun schema => { database, schema, table }))

/-- A table by its own name. -/
def resolveTable (reference : TableRef) (table : Identifier) : Except Diagnostic TablePath :=
  match catalog.pathsOfTable table.name with
  | [] => .error (.semantic (.unknownTable table.name) (some table.span))
  | [path] => .ok path
  | _ => .error (.semantic (.ambiguousTable table.name) (some reference.span))

/-- A table by its name and the name of its schema. -/
def resolveInSchema (reference : TableRef) (schema table : Identifier)
    : Except Diagnostic TablePath :=
  match catalog.databases.filter (catalog.hasSchema · schema.name) with
  | [] => .error (.semantic (.unknownSchema schema.name) (some schema.span))
  | [database] =>
      if catalog.hasTable database schema.name table.name then
        .ok { database, schema := schema.name, table := table.name }
      else
        .error (.semantic (.unknownTableInSchema table.name schema.name) (some table.span))
  | _ => .error (.semantic (.ambiguousSchema schema.name) (some reference.span))

/-- A table by its full path; the first level that is missing is reported. -/
def resolveInDatabase (database schema table : Identifier) : Except Diagnostic TablePath :=
  if (catalog.schemas database.name).isNone then
    .error (.semantic (.unknownDatabase database.name) (some database.span))
  else if !catalog.hasSchema database.name schema.name then
    .error (.semantic (.unknownSchemaInDatabase schema.name database.name)
      (some schema.span))
  else if !catalog.hasTable database.name schema.name table.name then
    .error (.semantic (.unknownTableInDatabase table.name schema.name database.name)
      (some table.span))
  else
    .ok { database := database.name, schema := schema.name, table := table.name }

/-- The full path of the table that a reference means. -/
def resolve (reference : TableRef) : Except Diagnostic TablePath :=
  match reference.parts with
  | [table] => catalog.resolveTable reference table
  | [schema, table] => catalog.resolveInSchema reference schema table
  | [database, schema, table] => catalog.resolveInDatabase database schema table
  | _ => .error (.logical .unrecognizedReference)

end Catalog

end TableQuery
