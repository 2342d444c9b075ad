import TableQuery.Binary64
import TableQuery.OrderedMap

/-! Values of JSON documents.
Object members are a plain list here: what a reader yields has them in ascending order, while
result rows keep the order in which columns were requested, repeats included.
-/

namespace TableQuery

/-- A number that is held exactly, as an integer of 64 bits of either signedness, or else as
a binary floating-point number.
-/
inductive JsonNumber where
  | integer (value : Int) (bounds : -(Nat.pow 2 63) ≤ value ∧ value < Nat.pow 2 64)
  | double (value : Binary64)
deriving DecidableEq

/-- A JSON value. -/
inductive Json where
  | null
  | bool (value : Bool)
  | number (value : JsonNumber)
  | string (text : String)
  | array (items : List Json)
  | object (members : List (String × Json))

namespace Json

/-- An object with its members in ascending order; of one name the last member stays. -/
def ofMembers (members : List (String × Json)) : Json :=
  .object (OrderedMap.ofList members).entries

end Json

end TableQuery
