import TableQuery.Catalog.Document
import TableQuery.Proofs.Documents.NestedValues

/-! What all JSON values have in common that data of a form hold.
A catalog holds the values in the rows of its tables, and an insertion adds no others than
those of the new rows.
-/

namespace TableQuery

-----------------------------------------------------------------------------------------
-- Bound values
-----------------------------------------------------------------------------------------

namespace OrderedMap

variable {α : Type} {p : α → Prop} {map : OrderedMap α}

/-- Every bound value has a property. -/
def All (p : α → Prop) (map : OrderedMap α) : Prop :=
  ∀ entry ∈ map.entries, p entry.2

theorem all_empty : (empty : OrderedMap α).All p :=
  List.forall_mem_nil _

theorem All.insert {value : α} (all : map.All p) (name : String) (holds : p value)
    : (map.insert name value).All p := by
  intro entry member
  rcases mem_of_mem_insertEntry member with rfl | old
  · exact holds
  · exact all entry old

/-- What a look-up finds has the property, and so has what stands for a missing value. -/
theorem All.getD {missing : α} (all : map.All p) (name : String) (holds : p missing)
    : p ((map.get? name).getD missing) := by
  cases looked : map.get? name with
  | none => exact holds
  | some value =>
      obtain ⟨entry, found, rfl⟩ := Option.map_eq_some_iff.mp looked
      exact all entry (List.mem_of_find?_eq_some found)

theorem all_ofList {bindings : List (String × α)} (holds : ∀ binding ∈ bindings, p binding.2)
    : (ofList bindings).All p :=
  fun entry member => holds entry (mem_of_mem_ofList member)

end OrderedMap

-----------------------------------------------------------------------------------------
-- Data of a form
-----------------------------------------------------------------------------------------

namespace Json.Form

variable {α : Type} {p q : Json → Prop}

/-- Every JSON value that the data hold has a property. -/
def Holds (p : Json → Prop) {α : Type} : Form α → α → Prop
  | .any, json => p json
  | .sequence item, items => ∀ data ∈ items, item.Holds p data
  | .map value, bound => bound.All (value.Holds p)

/-- What follows from a property of all values is another one, by induction on the form. -/
theorem Holds.imp (follows : ∀ json, p json → q json) {form : Form α} {data : α}
    (holds : form.Holds p data)
    : form.Holds q data := by
  induction form with
  | any => exact follows data holds
  | sequence item ih => exact fun data member => ih (holds data member)
  | map value ih => exact fun entry member => ih (holds entry member)

end Json.Form

-----------------------------------------------------------------------------------------
-- Catalogs
-----------------------------------------------------------------------------------------

namespace DocumentCatalog

variable {p : Json → Prop}

/-- Every value in the rows of every table has a property. -/
def HoldsOnly (p : Json → Prop) (documents : DocumentCatalog) : Prop :=
  form.Holds p documents.content

theorem holdsOnly_empty : empty.HoldsOnly p :=
  OrderedMap.all_empty

/-- An insertion adds no values but those of its rows. -/
theorem HoldsOnly.insertTable {documents : DocumentCatalog} (holds : documents.HoldsOnly p)
    (path : TablePath) {rows : List Record} (rowsHold : ∀ row ∈ rows, row.All p)
    : (documents.insertTable path rows).HoldsOnly p := by
  have schemas := OrderedMap.All.getD holds path.database OrderedMap.all_empty
  have tables := OrderedMap.All.getD schemas path.schema OrderedMap.all_empty
  exact OrderedMap.All.insert holds path.database
    (OrderedMap.All.insert schemas path.schema
      (OrderedMap.All.insert tables path.table rowsHold))

end DocumentCatalog

end TableQuery
