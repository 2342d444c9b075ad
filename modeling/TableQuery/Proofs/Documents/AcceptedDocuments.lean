import TableQuery.Proofs.Documents.StandardLibrary

/-! Which values are catalogs, and what is kept of them.
A map is read from an object and rows from an array, with every member and item at its own
level, so one value of another form anywhere rejects the document.  A level that is read can be
saved as it was, and a look-up finds in the catalog what stands in the document.
-/

namespace TableQuery

-----------------------------------------------------------------------------------------
-- The form of a document
-----------------------------------------------------------------------------------------

namespace Json

/-- An object of databases, which are objects of schemas, which are objects of tables.
A table is an array of objects with any values.
-/
def IsCatalog : Json → Prop :=
  IsObjectOf (IsObjectOf (IsObjectOf (IsArrayOf (IsObjectOf (fun _ => True)))))

/-- The names of an object's members; other values have no members. -/
def memberNames : Json → List String
  | object members => members.map Prod.fst
  | null | bool _ | number _ | string _ | array _ => []

/-- The value of a member, if there is one of the name. -/
def member? (name : String) : Json → Option Json
  | object members => (members.find? (fun member => member.1 == name)).map Prod.snd
  | null | bool _ | number _ | string _ | array _ => none

end Json

/-- A catalog answers look-ups from a document: it lists the names of the members on each
level, it has the rows that stand in the document, and it has nothing where no member is.
-/
structure Catalog.AnswersFrom (catalog : Catalog) (document : Json) : Prop where
  databases : catalog.databases = document.memberNames
  schemas
    : ∀ database, catalog.schemas database = (document.member? database).map Json.memberNames
  tables
    : ∀ database schema,
        catalog.tables database schema
        = ((document.member? database).bind (·.member? schema)).map Json.memberNames
  rows
    : ∀ path,
        (catalog.rows path).map
          (fun rows => Json.array (rows.map (fun row => .object row.entries)))
        = ((document.member? path.database).bind (·.member? path.schema)).bind
            (·.member? path.table)

-----------------------------------------------------------------------------------------
-- Looking up what was saved
-----------------------------------------------------------------------------------------

namespace Json.Form

variable {α : Type}

theorem memberNames_toJson (value : Form α) (bound : OrderedMap α)
    : ((map value).toJson bound).memberNames = bound.keys := by
  simp [toJson, memberNames, OrderedMap.keys]

theorem member?_toJson (value : Form α) (bound : OrderedMap α) (name : String)
    : ((map value).toJson bound).member? name = (bound.get? name).map value.toJson := by
  simp [toJson, member?, OrderedMap.get?, List.find?_map, Function.comp_def]

/-- Rows are written as objects with their values as they are. -/
theorem toJson_rows (rows : List Record)
    : (sequence (map any)).toJson rows
      = .array (rows.map (fun row => .object row.entries)) := by
  simp [toJson]

end Json.Form

namespace DocumentCatalog

open Json.Form

/-- A catalog answers look-ups from the document as which it is saved. -/
theorem answersFrom_toJson (documents : DocumentCatalog)
    : documents.toCatalog.AnswersFrom (form.toJson documents.content) where
  databases := (memberNames_toJson _ _).symm
  schemas database := by
    simp only [form, member?_toJson, toCatalog, Option.map_map, Function.comp_def,
      memberNames_toJson]
  tables database schema := by
    simp only [form, member?_toJson, toCatalog, Option.map_map, Function.comp_def,
      memberNames_toJson, Option.bind_map, Option.map_bind]
  rows path := by
    simp only [form, member?_toJson, toCatalog, Function.comp_def, Option.bind_map,
      Option.map_bind, Option.bind_assoc, ← toJson_rows]

/-- A catalog is loaded from a value exactly if the library reads its content from it. -/
theorem ofJson_eq_ok_iff {library : JsonLibrary} {json : Json} {documents : DocumentCatalog}
    : ofJson library json = .ok documents
      ↔ library.readValue form json = .ok documents.content := by
  obtain ⟨content⟩ := documents
  cases read : library.readValue form json <;>
    simp [ofJson, read, Except.mapError, Except.map]

end DocumentCatalog

/-- A value is loaded exactly if it has the form of a catalog, and then nothing of it is lost.
The catalog is saved as the same value again, and it answers every look-up from what stands in
the value.  Values in memory keep the members of their objects in order.
-/
theorem ofJson_accepts_catalogs {library : JsonLibrary} (reads : library.ReadsMemberwise)
    (writes : library.WritesMemberwise) (json : Json)
    : ((∃ documents, DocumentCatalog.ofJson library json = .ok documents) ↔ json.IsCatalog)
      ∧ (json.IsOrdered
        → ∀ documents,
            DocumentCatalog.ofJson library json = .ok documents
            → documents.toJson library = .ok json ∧ documents.toCatalog.AnswersFrom json) := by
  constructor
  · rw [Json.IsCatalog]
    refine Iff.trans ?_ (DocumentCatalog.form.exists_readValue_iff reads json)
    constructor
    · rintro ⟨documents, loaded⟩
      exact ⟨documents.content, DocumentCatalog.ofJson_eq_ok_iff.mp loaded⟩
    · rintro ⟨content, read⟩
      exact ⟨⟨content⟩, DocumentCatalog.ofJson_eq_ok_iff.mpr read⟩
  · intro ordered documents loaded
    have read := DocumentCatalog.ofJson_eq_ok_iff.mp loaded
    have saved := DocumentCatalog.form.toJson_of_readValue reads ordered read
    have answers := documents.answersFrom_toJson
    rw [saved] at answers
    have written := DocumentCatalog.form.writeValue_eq writes documents.content
    rw [saved] at written
    exact ⟨written, answers⟩

/-- A document with an empty schema and an empty table is loaded with both of them. -/
theorem load_empty_levels
    : let library := JsonLibrary.standard
      let tables : Json := .object [("orders", .array []), ("users", .array [.object []])]
      let json : Json := .object [("shop", .object [("audit", .object []), ("public", tables)])]
      library.ReadsMemberwise
      ∧ library.WritesMemberwise
      ∧ json.IsOrdered
      ∧ json.IsCatalog
      ∧ ∃ documents,
          DocumentCatalog.ofJson library json = .ok documents
          ∧ documents.toJson library = .ok json
          ∧ documents.toCatalog.schemas "shop" = some ["audit", "public"]
          ∧ documents.toCatalog.tables "shop" "audit" = some [] := by
  intro library tables json
  have reads : library.ReadsMemberwise := JsonLibrary.standard_readsMemberwise
  have writes : library.WritesMemberwise := JsonLibrary.standard_writesMemberwise
  have rowOrdered : (Json.object []).IsOrdered :=
    Json.isOrdered_object .nil (List.forall_mem_nil _)
  have tablesOrdered : tables.IsOrdered := by
    refine Json.isOrdered_object (by decide) ?_
    simp only [List.forall_mem_cons]
    exact ⟨Json.isOrdered_array (List.forall_mem_nil _),
      Json.isOrdered_array (List.forall_mem_singleton.mpr rowOrdered), List.forall_mem_nil _⟩
  have ordered : json.IsOrdered := by
    refine Json.isOrdered_object (by decide) (List.forall_mem_singleton.mpr ?_)
    refine Json.isOrdered_object (by decide) ?_
    simp only [List.forall_mem_cons]
    exact ⟨rowOrdered, tablesOrdered, List.forall_mem_nil _⟩
  have loaded : ∃ documents, DocumentCatalog.ofJson library json = .ok documents := ⟨_, rfl⟩
  obtain ⟨accepted, kept⟩ := ofJson_accepts_catalogs reads writes json
  refine ⟨reads, writes, ordered, accepted.mp loaded, ?_⟩
  obtain ⟨documents, loaded⟩ := loaded
  obtain ⟨saved, answers⟩ := kept ordered documents loaded
  refine ⟨documents, loaded, saved, ?_, ?_⟩
  · rw [answers.schemas]
    rfl
  · rw [answers.tables]
    rfl

end TableQuery
