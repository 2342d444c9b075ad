import TableQuery.Json
import TableQuery.TablePath

/-! Catalogs: stores of tables that are found by database, schema and name.
A store answers four look-ups.  The listings of all paths and of a table's columns follow
from them, unless a store supplies listings of its own.
-/

namespace TableQuery

/-- A stored row: the values of its columns by name. -/
abbrev Record := OrderedMap Json

/-- Every path that a store's look-ups lead to, level by level.
An absent level lists nothing.
-/
def listedPaths (databases : List String) (schemas : String → Option (List String))
    (tables : String → String → Option (List String))
    : List TablePath :=
  databases.flatMap (fun database =>
    ((schemas database).getD []).flatMap (fun schema =>
      ((tables database schema).getD []).map (fun table => { database, schema, table })))

/-- The column names of rows in the order in which they are first seen. -/
def seenColumns (rows : List Record) : List String :=
  (rows.flatMap OrderedMap.keys).eraseDups

/-- A read-only view of a table store.
A look-up is absent where the store knows nothing of the name it is asked for.
-/
structure Catalog where
  databases : List String
  schemas : String → Option (List String)
  tables : String → String → Option (List String)
  rows : TablePath → Option (List Record)
  tablePaths : List TablePath := listedPaths databases schemas tables
  columns : TablePath → List String := fun path => seenColumns ((rows path).getD [])

namespace Catalog

/-- The catalog as its sharers see it: the look-ups are those of the store, and the listings
follow from them.
-/
def shared (catalog : Catalog) : Catalog where
  databases := catalog.databases
  schemas := catalog.schemas
  tables := catalog.tables
  rows := catalog.rows

end Catalog

end TableQuery
