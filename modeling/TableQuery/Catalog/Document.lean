import TableQuery.Catalog
import TableQuery.Json.Library

/-! Catalogs held in a JSON document of the form database → schema → table → rows.
Names are kept in ascending order on every level, and a table without rows is still a table.
-/

namespace TableQuery

/-- Tables by database, schema and name. -/
@[ext]
structure DocumentCatalog where
  content : OrderedMap (OrderedMap (OrderedMap (List Record)))

/-- Why a catalog file could not be loaded. -/
inductive LoadError where
  | unreadable (path reason : String)
  | malformed (reason : String)

namespace LoadError

/-- What lies behind the error, in the words of the system or of the JSON library. -/
def cause : LoadError → String
  | unreadable _ reason | malformed reason => reason

def message : LoadError → String
  | unreadable path reason => s!"failed to read catalog '{path}': {reason}"
  | malformed reason => s!"malformed catalog document: {reason}"

end LoadError

namespace DocumentCatalog

def empty : DocumentCatalog where
  content := .empty

/-- The schemas of a database; a database that is not there has none. -/
def schemasOf (catalog : DocumentCatalog) (database : String)
    : OrderedMap (OrderedMap (List Record)) :=
  (catalog.content.get? database).getD .empty

/-- Puts a table at its path, instead of one that is there.
The database and the schema are added where they are missing.
-/
def insertTable (catalog : DocumentCatalog) (path : TablePath) (rows : List Record)
    : DocumentCatalog :=
  let schemas := catalog.schemasOf path.database
  let tables := (schemas.get? path.schema).getD .empty
  { content :=
      catalog.content.insert path.database
        (schemas.insert path.schema (tables.insert path.table rows)) }

/-- The look-ups of a document, which list names in ascending order. -/
def toCatalog (catalog : DocumentCatalog) : Catalog where
  databases := catalog.content.keys
  schemas := fun database => (catalog.content.get? database).map OrderedMap.keys
  tables := fun database schema =>
    ((catalog.content.get? database).bind (·.get? schema)).map OrderedMap.keys
  rows := fun path =>
    ((catalog.content.get? path.database).bind (·.get? path.schema)).bind (·.get? path.table)

-------------------------------------------------------------------------------
-- Loading and saving
-------------------------------------------------------------------------------

/-- A document holds databases, which hold schemas, which hold tables with their rows. -/
def form : Json.Form (OrderedMap (OrderedMap (OrderedMap (List Record)))) :=
  .map (.map (.map (.sequence (.map .any))))

variable (library : JsonLibrary)

/-- The catalog that a JSON value holds. -/
def ofJson (json : Json) : Except LoadError DocumentCatalog :=
  ((library.readValue form json).mapError .malformed).map DocumentCatalog.mk

/-- The catalog that a JSON text holds. -/
def ofText (text : String) : Except LoadError DocumentCatalog :=
  ((library.readText form text).mapError .malformed).map DocumentCatalog.mk

/-- The catalog in a file, given the file's path and either its bytes or the reason for
which the system could not read it.
-/
def ofFile (path : String) (content : Except String ByteArray)
    : Except LoadError DocumentCatalog :=
  match content with
  | .error reason => .error (.unreadable path reason)
  | .ok bytes =>
      match String.fromUTF8? bytes with
      | none => .error (.unreadable path "stream did not contain valid UTF-8")
      | some text => ofText library text

/-- The JSON value from which the catalog can be loaded again. -/
def toJson (catalog : DocumentCatalog) : Except String Json :=
  library.writeValue form catalog.content

/-- The JSON text from which the catalog can be loaded again. -/
def toText (catalog : DocumentCatalog) : Except String String :=
  library.writeText form catalog.content

end DocumentCatalog

end TableQuery
