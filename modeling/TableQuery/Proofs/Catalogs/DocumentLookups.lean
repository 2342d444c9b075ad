import TableQuery.Catalog.Document
import TableQuery.Proofs.Catalogs.ResolvedPaths

/-! The look-ups and listings of a document catalog agree.
A path is listed exactly if rows are found at it, and so are a schema's tables, so whatever
resolution finds can be answered.
-/

namespace TableQuery

/-- The paths that look-ups lead to are those whose names are listed on each level. -/
theorem mem_listedPaths_iff {databases : List String} {schemas : String → Option (List String)}
    {tables : String → String → Option (List String)} {path : TablePath}
    : path ∈ listedPaths databases schemas tables
      ↔ path.database ∈ databases
        ∧ path.schema ∈ (schemas path.database).getD []
        ∧ path.table ∈ (tables path.database path.schema).getD [] := by
  simp only [listedPaths, List.mem_flatMap, List.mem_map]
  constructor
  · intro ⟨database, listed, schema, inDatabase, table, inSchema, same⟩
    subst same
    exact ⟨listed, inDatabase, inSchema⟩
  · intro ⟨listed, inDatabase, inSchema⟩
    exact ⟨_, listed, _, inDatabase, _, inSchema, rfl⟩

namespace DocumentCatalog

variable {documents : DocumentCatalog}

/-- A schema lists exactly the tables that rows are found for. -/
theorem hasTable_iff {path : TablePath}
    : documents.toCatalog.hasTable path.database path.schema path.table
      ↔ (documents.toCatalog.rows path).isSome := by
  simp only [Catalog.hasTable, toCatalog, List.contains_eq_mem, decide_eq_true_eq]
  cases (documents.content.get? path.database).bind (·.get? path.schema) with
  | none => simp
  | some tables => simpa using tables.mem_keys_iff path.table

/-- The listed paths are exactly those that rows are found at: a database or schema that is
not listed has no tables.
-/
theorem mem_tablePaths_iff {path : TablePath}
    : path ∈ documents.toCatalog.tablePaths ↔ (documents.toCatalog.rows path).isSome := by
  rw [← hasTable_iff]
  simp only [toCatalog, mem_listedPaths_iff, Catalog.hasTable, OrderedMap.mem_keys_iff,
    List.contains_eq_mem, decide_eq_true_eq]
  cases documents.content.get? path.database with
  | none => simp
  | some schemas =>
      simp only [Option.isSome_some, Option.map_some, Option.getD_some, Option.bind_some,
        OrderedMap.mem_keys_iff, true_and, and_iff_right_iff_imp]
      cases schemas.get? path.schema with
      | none => simp
      | some tables => simp

/-- A resolved reference leads to a listed path with rows. -/
theorem of_resolve_eq_ok {reference : TableRef} {path : TablePath}
    (resolved : documents.toCatalog.resolve reference = .ok path)
    : path ∈ documents.toCatalog.tablePaths
      ∧ ∃ records, documents.toCatalog.rows path = some records := by
  have found := hasTable_iff.mp (Catalog.of_resolve_eq_ok resolved).2
  exact ⟨mem_tablePaths_iff.mpr found, Option.isSome_iff_exists.mp found⟩

end DocumentCatalog

end TableQuery
