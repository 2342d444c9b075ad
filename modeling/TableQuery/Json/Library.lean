import TableQuery.Json

/-! What is asked of a JSON library.
Whatever handles documents takes the library that reads and writes them as a parameter.
-/

namespace TableQuery

/-- The form of a JSON value that stands for data of a type: any value, an array of items of
one form, or an object of values of one form.
-/
inductive Json.Form : Type → Type 1 where
  | any : Form Json
  | sequence {α : Type} (item : Form α) : Form (List α)
  | map {α : Type} (value : Form α) : Form (OrderedMap α)

/-- A library that reads data from JSON values and texts and writes them as such.
What fails gives the library's own words for the reason.
-/
structure JsonLibrary where
  readValue {α : Type} : Json.Form α → Json → Except String α
  readText {α : Type} : Json.Form α → String → Except String α
  writeValue {α : Type} : Json.Form α → α → Except String Json
  writeText {α : Type} : Json.Form α → α → Except String String
  /-- Writes a value over several lines. -/
  writeIndented : Json → Except String String
  /-- A value as it is shown inside of other texts. -/
  display : Json → String

end TableQuery
