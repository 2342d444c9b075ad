import TableQuery.Proofs.Documents.AcceptedDocuments

/-! A catalog is loaded again from its compact text.
The text stands for the value as which the catalog is saved, and from this value the library
reads the catalog.  Only floating-point numbers and deeper documents are left out.
-/

namespace TableQuery

namespace DocumentCatalog

variable {library : JsonLibrary}

/-- A catalog as it can be: empty, loaded from a text, a value or a file, or filled further.
Values in memory keep the members of their objects in order, the given rows included.
-/
inductive Reached (library : JsonLibrary) : DocumentCatalog → Prop
  | empty : Reached library .empty
  | ofText {text documents} (loaded : ofText library text = .ok documents)
    : Reached library documents
  | ofJson {json documents} (ordered : json.IsOrdered)
    (loaded : ofJson library json = .ok documents)
    : Reached library documents
  | ofFile {path content documents} (loaded : ofFile library path content = .ok documents)
    : Reached library documents
  | insertTable {documents rows} (reached : Reached library documents) (path : TablePath)
    (ordered : ∀ row ∈ rows, row.All Json.IsOrdered)
    : Reached library (documents.insertTable path rows)

/-- A catalog is loaded from a text exactly if the library reads its content from it. -/
theorem ofText_eq_ok_iff {text : String} {documents : DocumentCatalog}
    : ofText library text = .ok documents
      ↔ library.readText form text = .ok documents.content := by
  obtain ⟨content⟩ := documents
  cases read : library.readText form text <;>
    simp [ofText, read, Except.mapError, Except.map]

/-- A catalog from a file was loaded from the text in it. -/
theorem exists_ofText_of_ofFile {path : String} {content : Except String ByteArray}
    {documents : DocumentCatalog} (loaded : ofFile library path content = .ok documents)
    : ∃ text, ofText library text = .ok documents := by
  revert loaded
  fun_cases ofFile library path content with
  | case1 | case2 => nofun
  | case3 _ text => exact fun loaded => ⟨text, loaded⟩

/-- A catalog from a text holds only values in order. -/
theorem holdsOnly_isOrdered_of_ofText (readsInOrder : library.ReadsInOrder) {text : String}
    {documents : DocumentCatalog} (loaded : ofText library text = .ok documents)
    : documents.HoldsOnly Json.IsOrdered :=
  readsInOrder form text documents.content (ofText_eq_ok_iff.mp loaded)

/-- However a catalog was reached, its values are in order, by induction on the insertions. -/
theorem Reached.holdsOnly_isOrdered (reads : library.ReadsMemberwise)
    (readsInOrder : library.ReadsInOrder) {documents : DocumentCatalog}
    (reached : documents.Reached library)
    : documents.HoldsOnly Json.IsOrdered := by
  induction reached with
  | empty => exact holdsOnly_empty
  | ofText loaded => exact holdsOnly_isOrdered_of_ofText readsInOrder loaded
  | ofJson ordered loaded =>
      exact form.holds_isOrdered_of_readValue reads ordered (ofJson_eq_ok_iff.mp loaded)
  | ofFile loaded =>
      obtain ⟨text, loaded⟩ := exists_ofText_of_ofFile loaded
      exact holdsOnly_isOrdered_of_ofText readsInOrder loaded
  | insertTable _ path ordered ih => exact ih.insertTable path ordered

end DocumentCatalog

/-- A saved catalog is loaded again as it was.
Its rows may hold any strings, all integers of 64 bits, and arrays and objects of any form, as
long as none of the numbers is a floating-point one and at most 127 arrays and objects are open
at the same time in the document.
-/
theorem saved_catalog_reloads {library : JsonLibrary} (reads : library.ReadsMemberwise)
    (writes : library.WritesMemberwise) (writesTexts : library.WritesCompactTexts)
    (readsTexts : library.ReadsTexts) (readsInOrder : library.ReadsInOrder)
    {documents : DocumentCatalog} (reached : documents.Reached library)
    (isExact : documents.HoldsOnly Json.IsExact)
    (shallow
      : documents.HoldsOnly (fun value => value.depth + DocumentCatalog.form.levels ≤ 127))
    : ∃ text,
        documents.toText library = .ok text
        ∧ DocumentCatalog.ofText library text = .ok documents := by
  let form := DocumentCatalog.form
  let json := form.toJson documents.content
  have jsonExact : json.IsExact := form.isExact_toJson isExact
  have jsonOrdered : json.IsOrdered :=
    form.isOrdered_toJson (reached.holdsOnly_isOrdered reads readsInOrder)
  have jsonShallow : json.depth < 128 := by
    have levels : DocumentCatalog.form.levels = 5 := rfl
    have valuesShallow : form.Holds (fun value => value.depth ≤ 122) documents.content :=
      shallow.imp (fun value shallow => by omega)
    have atMost : json.depth ≤ 122 + DocumentCatalog.form.levels :=
      form.depth_toJson_le valuesShallow
    omega
  have stands : Json.StandsFor json.compact.toList json := by
    rw [Json.compact, String.toList_ofList]
    exact Json.standsFor_compactChars jsonExact
  have saved : library.writeValue form documents.content = .ok json :=
    form.writeValue_eq writes documents.content
  have restored : library.readValue form json = .ok documents.content :=
    form.readValue_toJson reads documents.content
  have written := writesTexts form documents.content json saved jsonExact
  have read :=
    readsTexts form json.compact json documents.content stands jsonOrdered jsonShallow restored
  exact ⟨json.compact, written, DocumentCatalog.ofText_eq_ok_iff.mpr read⟩

/-- A table with a row of escaped characters, an integer at each limit and a nested array. -/
theorem reload_users
    : let library := JsonLibrary.standard
      let row : Record := .ofList [
        ("least", .number (.integer (-9223372036854775808) (by decide))),
        ("greatest", .number (.integer 18446744073709551615 (by decide))),
        ("na\"me", .string "back\\slash\n\x01"),
        ("tags", .array [.object []])]
      let documents := DocumentCatalog.empty.insertTable ⟨"shop", "public", "users"⟩ [row]
      library.ReadsMemberwise
      ∧ library.WritesMemberwise
      ∧ library.WritesCompactTexts
      ∧ library.ReadsTexts
      ∧ library.ReadsInOrder
      ∧ documents.Reached library
      ∧ documents.HoldsOnly Json.IsExact
      ∧ documents.HoldsOnly (fun value => value.depth + DocumentCatalog.form.levels ≤ 127)
      ∧ ∃ text,
          documents.toText library = .ok text
          ∧ DocumentCatalog.ofText library text = .ok documents := by
  intro library row documents
  have reads : library.ReadsMemberwise := JsonLibrary.standard_readsMemberwise
  have writes : library.WritesMemberwise := JsonLibrary.standard_writesMemberwise
  have writesTexts : library.WritesCompactTexts := JsonLibrary.standard_writesCompactTexts
  have readsTexts : library.ReadsTexts := JsonLibrary.standard_readsTexts
  have readsInOrder : library.ReadsInOrder := JsonLibrary.standard_readsInOrder
  have reached : documents.Reached library := by
    refine .insertTable .empty _ (List.forall_mem_singleton.mpr (OrderedMap.all_ofList ?_))
    simp only [List.forall_mem_cons]
    refine ⟨Json.isOrdered_scalar rfl, Json.isOrdered_scalar rfl, Json.isOrdered_scalar rfl,
      Json.isOrdered_array (List.forall_mem_singleton.mpr ?_), List.forall_mem_nil _⟩
    exact Json.isOrdered_object .nil (List.forall_mem_nil _)
  have isExact : documents.HoldsOnly Json.IsExact := by
    refine DocumentCatalog.holdsOnly_empty.insertTable _
      (List.forall_mem_singleton.mpr (OrderedMap.all_ofList ?_))
    simp only [List.forall_mem_cons]
    refine ⟨Json.isExact_integer _, Json.isExact_integer _,
      Json.everywhere_scalar rfl (by simp),
      Json.everywhere_array (by simp) (List.forall_mem_singleton.mpr ?_),
      List.forall_mem_nil _⟩
    exact Json.everywhere_object (by simp) (List.forall_mem_nil _)
  have shallow
      : documents.HoldsOnly
          (fun value => value.depth + DocumentCatalog.form.levels ≤ 127) := by
    refine DocumentCatalog.holdsOnly_empty.insertTable _
      (List.forall_mem_singleton.mpr (OrderedMap.all_ofList ?_))
    decide
  exact ⟨reads, writes, writesTexts, readsTexts, readsInOrder, reached, isExact, shallow,
    saved_catalog_reloads reads writes writesTexts readsTexts readsInOrder reached isExact
      shallow⟩

end TableQuery
