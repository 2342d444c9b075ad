import TableQuery.Json.Standard
import TableQuery.Proofs.Answers.Traversals
import TableQuery.Proofs.Documents.LibraryLaws

/-! Data of a form, as a library reads and writes them member by member.
Every fact about a form is one about arrays and one about objects, so all of them are proved by
induction on the form: which values are read, what is written, and that each of the two undoes
the other.
-/

namespace TableQuery

namespace Json

/-- An object whose values all have a form. -/
def IsObjectOf (form : Json → Prop) (value : Json) : Prop :=
  ∃ members, value = .object members ∧ ∀ member ∈ members, form member.2

/-- An array whose items all have a form. -/
def IsArrayOf (form : Json → Prop) (value : Json) : Prop :=
  ∃ items, value = .array items ∧ ∀ item ∈ items, form item

end Json

namespace Json.Form

variable {α : Type} {library : JsonLibrary} {p : Json → Prop}

/-- A value is of a form, with everything inside of it. -/
def Fits {α : Type} : Form α → Json → Prop
  | .any, _ => True
  | .sequence item, json => json.IsArrayOf item.Fits
  | .map value, json => json.IsObjectOf value.Fits

/-- How many arrays and objects a form has around each value that it leaves open. -/
def levels {α : Type} : Form α → Nat
  | .any => 0
  | .sequence item => item.levels + 1
  | .map value => value.levels + 1

-----------------------------------------------------------------------------------------
-- Reading
-----------------------------------------------------------------------------------------

/-- Data are read exactly from a value of their form, by induction on it. -/
theorem exists_readValue_iff (reads : library.ReadsMemberwise) (form : Form α) (json : Json)
    : (∃ data, library.readValue form json = .ok data) ↔ form.Fits json := by
  induction form generalizing json with
  | any => exact iff_of_true ⟨json, reads.any json⟩ trivial
  | sequence item ih =>
      simp only [reads.sequence, Fits, IsArrayOf]
      constructor
      · rintro ⟨items, values, rfl, each⟩
        have read := exists_forall₂_iff.mp ⟨items, each⟩
        exact ⟨values, rfl, fun value member => (ih value).mp (read value member)⟩
      · rintro ⟨values, rfl, fits⟩
        have read := fun value member => (ih value).mpr (fits value member)
        obtain ⟨items, each⟩ := exists_forall₂_iff.mpr read
        exact ⟨items, values, rfl, each⟩
  | map value ih =>
      simp only [reads.map, Fits, IsObjectOf]
      constructor
      · rintro ⟨_, members, bindings, rfl, each, _⟩
        refine ⟨members, rfl, fun member isMember => (ih member.2).mp ?_⟩
        obtain ⟨binding, _, read⟩ := exists_forall₂_iff.mp ⟨bindings, each⟩ member isMember
        exact ⟨binding.2, read⟩
      · rintro ⟨members, rfl, fits⟩
        obtain ⟨bindings, each⟩ : ∃ bindings : List (String × _), List.Forall₂
            (fun member binding =>
              member.1 = binding.1 ∧ library.readValue value member.2 = .ok binding.2)
            members bindings := by
          refine exists_forall₂_iff.mpr (fun member isMember => ?_)
          obtain ⟨data, read⟩ := (ih member.2).mpr (fits member isMember)
          exact ⟨(member.1, data), rfl, read⟩
        exact ⟨_, members, bindings, rfl, each, rfl⟩

/-- Data that are read from a value in order hold only values in order, by induction on the
form.
-/
theorem holds_isOrdered_of_readValue (reads : library.ReadsMemberwise) (form : Form α)
    {json : Json} (ordered : json.IsOrdered) {data : α}
    (read : library.readValue form json = .ok data)
    : form.Holds IsOrdered data := by
  induction form generalizing json with
  | any =>
      obtain rfl := Except.ok.inj ((reads.any json).symm.trans read)
      exact ordered
  | sequence item ih =>
      obtain ⟨values, rfl, each⟩ := (reads.sequence item json data).mp read
      intro item member
      obtain ⟨value, isValue, itemRead⟩ := exists_of_forall₂_right each member
      exact ih (ordered.of_item isValue) itemRead
  | map value ih =>
      obtain ⟨members, bindings, rfl, each, rfl⟩ := (reads.map value json data).mp read
      refine OrderedMap.all_ofList (fun binding isBinding => ?_)
      obtain ⟨member, isMember, _, valueRead⟩ := exists_of_forall₂_right each isBinding
      exact ih (ordered.of_member isMember) valueRead

-----------------------------------------------------------------------------------------
-- Writing
-----------------------------------------------------------------------------------------

/-- What is written member by member, by induction on the form. -/
theorem writeValue_eq (writes : library.WritesMemberwise) (form : Form α) (data : α)
    : library.writeValue form data = .ok (form.toJson data) := by
  induction form with
  | any => exact writes.any data
  | sequence item ih =>
      refine writes.sequence item ?_
      rw [List.forall₂_map_right_iff, List.forall₂_same]
      exact fun data _ => ih data
  | map value ih =>
      refine writes.map value ?_
      rw [List.forall₂_map_right_iff, List.forall₂_same]
      exact fun binding _ => ⟨rfl, ih binding.2⟩

/-- What is written has no floating-point numbers but those in the data, by induction on the
form.
-/
theorem isExact_toJson (form : Form α) {data : α} (isExact : form.Holds IsExact data)
    : (form.toJson data).IsExact := by
  induction form with
  | any => exact isExact
  | sequence item ih =>
      refine everywhere_array (by simp) (List.forall_mem_map.mpr ?_)
      exact fun data member => ih (isExact data member)
  | map value ih =>
      refine everywhere_object (by simp) (List.forall_mem_map.mpr ?_)
      exact fun binding member => ih (isExact binding member)

/-- What is written is in order, because maps are, by induction on the form. -/
theorem isOrdered_toJson (form : Form α) {data : α} (ordered : form.Holds IsOrdered data)
    : (form.toJson data).IsOrdered := by
  induction form with
  | any => exact ordered
  | sequence item ih =>
      refine isOrdered_array (List.forall_mem_map.mpr ?_)
      exact fun data member => ih (ordered data member)
  | map value ih =>
      have ascending : Ascending (data.entries.map fun entry => (entry.1, value.toJson entry.2)) :=
        List.pairwise_map.mpr data.ascending
      refine isOrdered_object ascending (List.forall_mem_map.mpr ?_)
      exact fun binding member => ih (ordered binding member)

/-- What is written is deeper than the values in the data by the levels of the form, by
induction on it.
-/
theorem depth_toJson_le (form : Form α) {data : α} {depth : Nat}
    (shallow : form.Holds (fun json => json.depth ≤ depth) data)
    : (form.toJson data).depth ≤ depth + form.levels := by
  induction form with
  | any => exact shallow
  | sequence item ih =>
      refine depth_array_le (List.forall_mem_map.mpr ?_)
      exact fun data member => ih (shallow data member)
  | map value ih =>
      refine depth_object_le (List.forall_mem_map.mpr ?_)
      exact fun binding member => ih (shallow binding member)

-----------------------------------------------------------------------------------------
-- Reading and writing
-----------------------------------------------------------------------------------------

/-- Data are read again from what they are written as, by induction on the form. -/
theorem readValue_toJson (reads : library.ReadsMemberwise) (form : Form α) (data : α)
    : library.readValue form (form.toJson data) = .ok data := by
  induction form with
  | any => exact reads.any data
  | sequence item ih =>
      refine (reads.sequence item _ data).mpr ⟨_, rfl, ?_⟩
      rw [List.forall₂_map_left_iff, List.forall₂_same]
      exact fun data _ => ih data
  | map value ih =>
      refine (reads.map value _ data).mpr
        ⟨_, data.entries, rfl, ?_, OrderedMap.ofList_entries data⟩
      rw [List.forall₂_map_left_iff, List.forall₂_same]
      exact fun binding _ => ⟨rfl, ih binding.2⟩

/-- A value in order is written again after data were read from it, by induction on the form.
The members of its objects were in order before, so the maps have their bindings in this order.
-/
theorem toJson_of_readValue (reads : library.ReadsMemberwise) (form : Form α) {json : Json}
    (ordered : json.IsOrdered) {data : α} (read : library.readValue form json = .ok data)
    : form.toJson data = json := by
  induction form generalizing json with
  | any => exact (Except.ok.inj ((reads.any json).symm.trans read)).symm
  | sequence item ih =>
      obtain ⟨values, rfl, each⟩ := (reads.sequence item json data).mp read
      refine congrArg Json.array (map_eq_of_forall₂ each ?_)
      exact fun value member data itemRead => ih (ordered.of_item member) itemRead
  | map value ih =>
      obtain ⟨members, bindings, rfl, each, rfl⟩ := (reads.map value json data).mp read
      have written
          : bindings.map (fun binding => (binding.1, value.toJson binding.2)) = members := by
        refine map_eq_of_forall₂ each ?_
        rintro ⟨name, json⟩ isMember ⟨_, data⟩ ⟨rfl, valueRead⟩
        rw [ih (ordered.of_member isMember) valueRead]
      have ascending : Ascending bindings := by
        have names := ordered.here members rfl
        rwa [← written, Ascending, List.pairwise_map] at names
      rw [toJson, OrderedMap.entries_ofList ascending, ← written]

end Json.Form

end TableQuery
