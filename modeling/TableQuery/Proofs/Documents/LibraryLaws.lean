import TableQuery.Proofs.Documents.HeldValues
import TableQuery.Proofs.Documents.WrittenTexts

/-! What a JSON library promises to whoever reads and writes documents with it.
Data are read from values and written as values member by member, and texts are read and
written as the format says.  Nothing is promised of texts with blanks or floating-point numbers,
nor of what is reported when a document is rejected.
-/

namespace TableQuery.JsonLibrary

variable (library : JsonLibrary)

/-- Data are read from a value member by member.
Sequences are only read from arrays and maps only from objects, with everything inside at its
own form.  Of members with the same name the last one counts.
-/
structure ReadsMemberwise : Prop where
  any (json : Json) : library.readValue .any json = .ok json
  sequence {α : Type} (item : Json.Form α) (json : Json) (items : List α)
    : library.readValue (.sequence item) json = .ok items
      ↔ ∃ values,
          json = .array values
          ∧ List.Forall₂ (fun value data => library.readValue item value = .ok data)
              values items
  map {α : Type} (value : Json.Form α) (json : Json) (map : OrderedMap α)
    : library.readValue (.map value) json = .ok map
      ↔ ∃ members bindings,
          json = .object members
          ∧ List.Forall₂
              (fun member binding =>
                member.1 = binding.1 ∧ library.readValue value member.2 = .ok binding.2)
              members bindings
          ∧ .ofList bindings = map

/-- Data are written as a value member by member: sequences as arrays in their order, and maps
as objects in the order of the names.
-/
structure WritesMemberwise : Prop where
  any (json : Json) : library.writeValue .any json = .ok json
  sequence {α : Type} (item : Json.Form α) {items : List α} {values : List Json}
    (each
      : List.Forall₂ (fun data value => library.writeValue item data = .ok value) items values)
    : library.writeValue (.sequence item) items = .ok (.array values)
  map {α : Type} (value : Json.Form α) {map : OrderedMap α} {members : List (String × Json)}
    (each
      : List.Forall₂
          (fun binding member =>
            binding.1 = member.1 ∧ library.writeValue value binding.2 = .ok member.2)
          map.entries members)
    : library.writeValue (.map value) map = .ok (.object members)

/-- Data are written as the compact text of their value, if all numbers in it are integers. -/
def WritesCompactTexts : Prop :=
  ∀ {α : Type} (form : Json.Form α) (data : α) (json : Json),
    library.writeValue form data = .ok json
    → json.IsExact
    → library.writeText form data = .ok json.compact

/-- Data are read from a text as from the value that the text stands for, if fewer than 128
arrays and objects are open at the same time.
-/
def ReadsTexts : Prop :=
  ∀ {α : Type} (form : Json.Form α) (text : String) (json : Json) (data : α),
    Json.StandsFor text.toList json
    → json.IsOrdered
    → json.depth < 128
    → library.readValue form json = .ok data
    → library.readText form text = .ok data

/-- Whatever is read from a text has the members of its objects in order. -/
def ReadsInOrder : Prop :=
  ∀ {α : Type} (form : Json.Form α) (text : String) (data : α),
    library.readText form text = .ok data → form.Holds Json.IsOrdered data

end TableQuery.JsonLibrary
