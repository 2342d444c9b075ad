/-! The full path of a table in a catalog. -/

namespace TableQuery

/-- A table is found in a schema of a database. -/
structure TablePath where
  database : String
  schema : String
  table : String
deriving DecidableEq

namespace TablePath

/-- The three names of a path, the outermost first. -/
def segments (path : TablePath) : List String :=
  [path.database, path.schema, path.table]

def display (path : TablePath) : String :=
  s!"{path.database}.{path.schema}.{path.table}"

end TablePath

end TableQuery
