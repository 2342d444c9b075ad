import TableQuery.Proofs.Documents.MemberwiseData
import TableQuery.Proofs.Documents.ReadElements
import TableQuery.Proofs.Documents.ReadValues

/-! The library that the command line works with keeps what JSON libraries promise.
Where the promise is one about texts, data of a form are read from a text as they are read from
the value that it stands for.
-/

namespace TableQuery

namespace Json

theorem asMap_eq_ok_iff {value : Json} {members : List (String × Json)}
    : value.asMap = .ok members ↔ value = .object members := by
  cases value <;> simp [asMap]

theorem asSequence_eq_ok_iff {value : Json} {items : List Json}
    : value.asSequence = .ok items ↔ value = .array items := by
  cases value <;> simp [asSequence]

namespace Form

variable {α : Type} {json : Json}

/-- A sequence is read from an array, each of its items from the one at its place. -/
theorem ofJson_sequence_eq_ok_iff {item : Form α} {items : List α}
    : (sequence item).ofJson json = .ok items
      ↔ ∃ values,
          json = .array values
          ∧ List.Forall₂ (fun value data => item.ofJson value = .ok data) values items := by
  simp only [ofJson, bind_eq_ok_iff, asSequence_eq_ok_iff, mapM_eq_ok_iff]

/-- A map is read from an object, each of its bindings from the member at its place. -/
theorem ofJson_map_eq_ok_iff {value : Form α} {bound : OrderedMap α}
    : (map value).ofJson json = .ok bound
      ↔ ∃ members bindings,
          json = .object members
          ∧ List.Forall₂
              (fun member binding =>
                member.1 = binding.1 ∧ value.ofJson member.2 = .ok binding.2)
              members bindings
          ∧ .ofList bindings = bound := by
  have entry (member : String × Json) (binding : String × α)
      : (∃ data, value.ofJson member.2 = .ok data ∧ (member.1, data) = binding)
        ↔ member.1 = binding.1 ∧ value.ofJson member.2 = .ok binding.2 := by
    constructor
    · rintro ⟨data, read, rfl⟩
      exact ⟨rfl, read⟩
    · rintro ⟨sameName, read⟩
      exact ⟨binding.2, read, Prod.ext sameName rfl⟩
  simp only [ofJson, bind_eq_ok_iff, asMap_eq_ok_iff, mapM_eq_ok_iff, map_eq_ok_iff, entry]
  constructor
  · rintro ⟨members, isObject, bindings, each, same⟩
    exact ⟨members, bindings, isObject, each, Except.ok.inj same⟩
  · rintro ⟨members, bindings, isObject, each, same⟩
    exact ⟨members, isObject, bindings, each, congrArg Except.ok same⟩

/-- Data of a form are read from a text that stands for a value from which they are read, by
induction on the form.
-/
theorem takes_reader (form : Form α) {depth : Nat} {written : List Char} {data : α}
    (stands : StandsFor written json) (ordered : json.IsOrdered)
    (shallow : json.depth ≤ depth) (read : form.ofJson json = .ok data)
    : Takes (form.reader depth) written data := by
  induction form generalizing json depth written with
  | any =>
      obtain rfl := Except.ok.inj read
      exact takes_value stands ordered shallow
  | sequence item ih =>
      obtain ⟨values, rfl, each⟩ := ofJson_sequence_eq_ok_iff.mp read
      obtain ⟨inner, rfl⟩ := exists_eq_succ_of_depth shallow (Nat.succ_pos _)
      cases stands with
      | array standEach =>
          refine takes_sequence (forall₂_comp standEach each ?_)
          intro value member text data valueStands valueRead
          have less := depth_lt_of_item member
          exact ih valueStands (ordered.of_item member) (by omega) valueRead
  | map value ih =>
      obtain ⟨members, bindings, rfl, each, rfl⟩ := ofJson_map_eq_ok_iff.mp read
      obtain ⟨inner, rfl⟩ := exists_eq_succ_of_depth shallow (Nat.succ_pos _)
      cases stands with
      | object standEach =>
          refine takes_map (forall₂_comp standEach each ?_)
          rintro ⟨name, json⟩ member text ⟨_, data⟩ ⟨isName, isValue⟩ ⟨rfl, valueRead⟩
          have less := depth_lt_of_member member
          exact takes_member isName
            (ih isValue (ordered.of_member member) (by omega) valueRead)

end Form

/-- A text that is taken as a whole is read with nothing left behind it. -/
theorem readText_of_takes {α : Type} {reader : Reader α} {text : String} {data : α}
    (takes : Takes reader text.toList data)
    : readText reader text = .ok data := by
  cases written : text.toList with
  | nil => rw [written] at takes; cases takes
  | cons c more =>
      rw [written] at takes
      cases takes with
      | intro begins gives =>
          have behind := gives_readBehindBlanks begins (gives [] (by simp [EndsValue]))
          rw [List.append_nil, ← written] at behind
          obtain ⟨_, read⟩ := behind
          simp only [readText, read]
          rfl

end Json

namespace JsonLibrary

open Json

theorem mapError_eq_ok_iff {ε δ α : Type} {change : ε → δ} {result : Except ε α} {value : α}
    : result.mapError change = .ok value ↔ result = .ok value := by
  cases result <;> simp [Except.mapError]

theorem standard_readsMemberwise : standard.ReadsMemberwise where
  any _ := rfl
  sequence item json items := by
    simp only [standard, mapError_eq_ok_iff, Form.ofJson_sequence_eq_ok_iff]
  map value json bound := by
    simp only [standard, mapError_eq_ok_iff, Form.ofJson_map_eq_ok_iff]

/-- A list is what its items are related to if they are only related to one thing each. -/
theorem map_eq_of_forall₂_eq {α β : Type} {convert : α → β} {items : List α} {results : List β}
    (each : List.Forall₂ (fun item result => convert item = result) items results)
    : items.map convert = results := by
  have same := List.forall₂_map_left_iff.mpr each
  rwa [List.forall₂_eq_eq_eq] at same

theorem standard_writesMemberwise : standard.WritesMemberwise where
  any _ := rfl
  sequence item items values each := by
    have written := map_eq_of_forall₂_eq (each.imp (fun _ _ written => Except.ok.inj written))
    exact congrArg (fun values => Except.ok (array values)) written
  map value bound members each := by
    have written
        : bound.entries.map (fun binding => (binding.1, value.toJson binding.2)) = members := by
      refine map_eq_of_forall₂_eq (each.imp ?_)
      exact fun _ _ written => Prod.ext written.1 (Except.ok.inj written.2)
    exact congrArg (fun members => Except.ok (object members)) written

theorem standard_writesCompactTexts : standard.WritesCompactTexts := by
  intro α form data json written _
  obtain rfl := Except.ok.inj written
  rfl

theorem standard_readsTexts : standard.ReadsTexts := by
  intro α form text json data stands ordered shallow read
  have takes := form.takes_reader stands ordered (Nat.le_of_lt_succ shallow)
    (mapError_eq_ok_iff.mp read)
  exact mapError_eq_ok_iff.mpr (readText_of_takes takes)

theorem standard_readsInOrder : standard.ReadsInOrder := by
  intro α form text data read
  exact ((form.readsOnly_reader maxDepth).text text).of_eq_ok (mapError_eq_ok_iff.mp read)

end JsonLibrary

end TableQuery
