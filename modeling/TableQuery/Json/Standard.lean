import TableQuery.Json.Library
import TableQuery.Json.Reader

/-! The JSON library that the command line works with.
Data are read from a text at once, without a value in between, so a text is rejected at the
first place where it is no longer of the expected form.
-/

namespace TableQuery

namespace Json.Form

/-- Reads data from a value, level by level. -/
def ofJson {α : Type} : Form α → Json → Except Problem α
  | .any, json => .ok json
  | .sequence item, json => do
      let items ← json.asSequence
      items.mapM item.ofJson
  | .map value, json => do
      let members ← json.asMap
      let bindings ← members.mapM (fun (name, member) => (name, ·) <$> value.ofJson member)
      return OrderedMap.ofList bindings

/-- Writes data as a value, level by level. -/
def toJson {α : Type} : Form α → α → Json
  | .any, json => json
  | .sequence item, items => .array (items.map item.toJson)
  | .map value, bound =>
      .object (bound.entries.map (fun (name, data) => (name, value.toJson data)))

/-- Reads data from a text in which at most the given number of arrays and objects may be open
at the same time.
-/
def reader {α : Type} : Form α → (depth : Nat) → Reader α
  | .any, depth => readValue depth
  | .sequence _, 0 => readTooDeep .sequence
  | .sequence item, depth + 1 => readSequence (item.reader depth)
  | .map _, 0 => readTooDeep .map
  | .map value, depth + 1 => readMap (value.reader depth)

end Json.Form

namespace JsonLibrary

/-- Reads and writes JSON in its usual forms. -/
def standard : JsonLibrary where
  readValue form json := (form.ofJson json).mapError Json.Problem.message
  readText form text :=
    (Json.readText (form.reader Json.maxDepth) text).mapError Json.Rejection.message
  writeValue form data := .ok (form.toJson data)
  writeText form data := .ok (form.toJson data).compact
  writeIndented json := .ok json.indented
  display := Json.compact

end JsonLibrary

end TableQuery
