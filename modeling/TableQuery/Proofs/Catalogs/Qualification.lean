import TableQuery.Proofs.Catalogs.DocumentLookups
import TableQuery.Proofs.Reading.SpelledReferences

/-! References of different lengths to one table.
Where a catalog lists every level of a path, each reference by last names of the path finds at
least that path, so it resolves to it or is ambiguous.  A shorter reference that is resolved
shows that its path is listed.
-/

namespace TableQuery

/-- A reference is resolved to a path or is ambiguous.
A table alone is ambiguous where several tables have its name, and a table with its schema
where several schemas have theirs; a full path never is.
-/
inductive Catalog.ResolvesUnlessAmbiguous (catalog : Catalog) (reference : TableRef)
    (path : TablePath)
    : Prop
  | resolved (found : catalog.resolve reference = .ok path)
  | severalTables {table} (parts : reference.parts = [table])
    (rejected
      : catalog.resolve reference
        = .error (.semantic (.ambiguousTable table.name) (some reference.span)))
  | severalSchemas {schema table} (parts : reference.parts = [schema, table])
    (rejected
      : catalog.resolve reference
        = .error (.semantic (.ambiguousSchema schema.name) (some reference.span)))

/-- A catalog lists the names of a path, each one below the one in front of it. -/
structure Catalog.Lists (catalog : Catalog) (path : TablePath) : Prop where
  database : path.database ∈ catalog.databases
  schema : catalog.hasSchema path.database path.schema
  table : catalog.hasTable path.database path.schema path.table

/-- A reference by last names of a path has one, two or three of them. -/
theorem TableRef.exists_parts_of_suffix {reference : TableRef} {path : TablePath}
    (ending : reference.names <:+ path.segments)
    : (∃ table, reference.parts = [table] ∧ table.name = path.table)
      ∨ (∃ schema table,
          reference.parts = [schema, table]
          ∧ schema.name = path.schema
          ∧ table.name = path.table)
      ∨ ∃ database schema table,
          reference.parts = [database, schema, table]
          ∧ database.name = path.database
          ∧ schema.name = path.schema
          ∧ table.name = path.table := by
  have notEmpty : reference.names ≠ [] := by simp [names, parts]
  simp only [TablePath.segments, List.suffix_cons_iff, List.suffix_nil, notEmpty, or_false]
    at ending
  simp only [names, List.map_eq_cons_iff, List.map_eq_nil_iff] at ending
  rcases ending with full | withSchema | alone
  · obtain ⟨database, _, whole, databaseNamed, schema, _, rfl, schemaNamed, table, _, rfl,
      tableNamed, rfl⟩ := full
    exact Or.inr (Or.inr ⟨database, schema, table, whole, databaseNamed, schemaNamed,
      tableNamed⟩)
  · obtain ⟨schema, _, whole, schemaNamed, table, _, rfl, tableNamed, rfl⟩ := withSchema
    exact Or.inr (Or.inl ⟨schema, table, whole, schemaNamed, tableNamed⟩)
  · obtain ⟨table, _, whole, tableNamed, rfl⟩ := alone
    exact Or.inl ⟨table, whole, tableNamed⟩

namespace Catalog

variable {catalog : Catalog} {reference : TableRef} {path : TablePath}

theorem ResolvesUnlessAmbiguous.resolve_of_full
    (settled : catalog.ResolvesUnlessAmbiguous reference path)
    (full : reference.parts.length = 3)
    : catalog.resolve reference = .ok path := by
  cases settled with
  | resolved found => exact found
  | severalTables parts => simp [parts] at full
  | severalSchemas parts => simp [parts] at full

-----------------------------------------------------------------------------------------
-- From a listed path to its references
-----------------------------------------------------------------------------------------

namespace Lists

/-- The path is one of the places of its table. -/
theorem resolvesUnlessAmbiguous_table (lists : catalog.Lists path) {table : Identifier}
    (parts : reference.parts = [table]) (named : table.name = path.table)
    : catalog.ResolvesUnlessAmbiguous reference path := by
  have placed : path ∈ catalog.pathsOfTable table.name := by
    have inSchema := lists.schema
    rw [hasSchema, List.contains_iff_mem] at inSchema
    exact mem_pathsOfTable_iff.mpr
      ⟨lists.database, inSchema, named ▸ lists.table, named.symm⟩
  have search : catalog.resolve reference = catalog.resolveTable reference table := by
    rw [resolve, parts]
  rcases places : catalog.pathsOfTable table.name with _ | ⟨place, _ | _⟩
  · simp [places] at placed
  · obtain rfl : path = place := by simpa [places] using placed
    exact .resolved (search.trans (resolveTable_eq_ok_iff.mpr places))
  · exact .severalTables parts (by rw [search, resolveTable, places])

/-- The database of the path is one of those with its schema. -/
theorem resolvesUnlessAmbiguous_schema (lists : catalog.Lists path)
    {schema table : Identifier} (parts : reference.parts = [schema, table])
    (schemaNamed : schema.name = path.schema) (tableNamed : table.name = path.table)
    : catalog.ResolvesUnlessAmbiguous reference path := by
  have placed : path.database ∈ catalog.databases.filter (catalog.hasSchema · schema.name) :=
    List.mem_filter.mpr ⟨lists.database, schemaNamed ▸ lists.schema⟩
  have search : catalog.resolve reference
      = catalog.resolveInSchema reference schema table := by
    rw [resolve, parts]
  rcases places : catalog.databases.filter (catalog.hasSchema · schema.name) with
    _ | ⟨database, _ | _⟩
  · simp [places] at placed
  · have same : path.database = database := by simpa [places] using placed
    have found : catalog.hasTable path.database schema.name table.name := by
      rw [schemaNamed, tableNamed]
      exact lists.table
    exact .resolved (search.trans (resolveInSchema_eq_ok_iff.mpr
      ⟨same ▸ places, found, schemaNamed.symm, tableNamed.symm⟩))
  · exact .severalSchemas parts (by rw [search, resolveInSchema, places])

/-- Every reference by last names of a listed path finds the path among others. -/
theorem resolvesUnlessAmbiguous (lists : catalog.Lists path)
    (ending : reference.names <:+ path.segments)
    : catalog.ResolvesUnlessAmbiguous reference path := by
  rcases reference.exists_parts_of_suffix ending with
    ⟨table, parts, named⟩ | ⟨schema, table, parts, schemaNamed, tableNamed⟩
      | ⟨database, schema, table, parts, databaseNamed, schemaNamed, tableNamed⟩
  · exact lists.resolvesUnlessAmbiguous_table parts named
  · exact lists.resolvesUnlessAmbiguous_schema parts schemaNamed tableNamed
  · refine .resolved ?_
    rw [resolve, parts, resolveInDatabase_eq_ok_iff, databaseNamed, schemaNamed, tableNamed]
    exact ⟨rfl, lists.schema, lists.table⟩

end Lists

-----------------------------------------------------------------------------------------
-- From a resolved reference to its path
-----------------------------------------------------------------------------------------

/-- A resolved reference leads to a listed schema, and one that is not a full path also to a
listed database.  Witness: the search for the reference's number of names.
-/
theorem hasSchema_of_resolve (resolved : catalog.resolve reference = .ok path)
    : catalog.hasSchema path.database path.schema
      ∧ (reference.parts.length < 3 → path.database ∈ catalog.databases) := by
  rw [resolve] at resolved
  split at resolved
  · rename_i table parts
    have placed : path ∈ catalog.pathsOfTable table.name := by
      simp [resolveTable_eq_ok_iff.mp resolved]
    obtain ⟨listed, inDatabase, _, _⟩ := mem_pathsOfTable_iff.mp placed
    rw [hasSchema, List.contains_iff_mem]
    exact ⟨inDatabase, fun _ => listed⟩
  · rename_i schema table parts
    obtain ⟨places, _, schemaNamed, _⟩ := resolveInSchema_eq_ok_iff.mp resolved
    have placed : path.database ∈ catalog.databases.filter (catalog.hasSchema · schema.name) := by
      simp [places]
    obtain ⟨listed, inDatabase⟩ := List.mem_filter.mp placed
    exact ⟨schemaNamed ▸ inDatabase, fun _ => listed⟩
  · rename_i database schema table parts
    obtain ⟨rfl, inDatabase, _⟩ := resolveInDatabase_eq_ok_iff.mp resolved
    refine ⟨inDatabase, ?_⟩
    intro short
    simp [parts] at short
  · cases resolved

theorem lists_of_resolve (resolved : catalog.resolve reference = .ok path)
    (short : reference.parts.length < 3)
    : catalog.Lists path := by
  obtain ⟨inDatabase, listed⟩ := hasSchema_of_resolve resolved
  exact ⟨listed short, inDatabase, (of_resolve_eq_ok resolved).2⟩

/-- Once any reference is resolved, so is the full path that it stands for. -/
theorem resolve_of_segments (resolved : catalog.resolve reference = .ok path)
    {full : TableRef} (spelled : full.names = path.segments)
    : catalog.resolve full = .ok path := by
  have ending : full.names <:+ path.segments := ⟨[], spelled⟩
  rcases full.exists_parts_of_suffix ending with
    ⟨table, parts, _⟩ | ⟨schema, table, parts, _⟩
      | ⟨database, schema, table, parts, databaseNamed, schemaNamed, tableNamed⟩
  · simp [TableRef.names, parts, TablePath.segments] at spelled
  · simp [TableRef.names, parts, TablePath.segments] at spelled
  · rw [resolve, parts, resolveInDatabase_eq_ok_iff, databaseNamed, schemaNamed, tableNamed]
    exact ⟨rfl, (hasSchema_of_resolve resolved).1, (of_resolve_eq_ok resolved).2⟩

end Catalog

namespace DocumentCatalog

variable {documents : DocumentCatalog} {path : TablePath}

/-- The paths that a document catalog lists level by level are those that it lists at once. -/
theorem lists_iff_mem_tablePaths
    : documents.toCatalog.Lists path ↔ path ∈ documents.toCatalog.tablePaths := by
  simp only [toCatalog, mem_listedPaths_iff]
  constructor
  · rintro ⟨listed, inDatabase, inSchema⟩
    exact ⟨listed, List.contains_iff_mem.mp inDatabase, List.contains_iff_mem.mp inSchema⟩
  · rintro ⟨listed, inDatabase, inSchema⟩
    exact ⟨listed, List.contains_iff_mem.mpr inDatabase, List.contains_iff_mem.mpr inSchema⟩

/-- In a document catalog a full path is listed too where it is resolved. -/
theorem lists_of_resolve {reference : TableRef}
    (resolved : documents.toCatalog.resolve reference = .ok path)
    : documents.toCatalog.Lists path :=
  lists_iff_mem_tablePaths.mpr (of_resolve_eq_ok resolved).1

end DocumentCatalog

/-- A table that one reference is resolved to is not lost to another reference.
The reference names the last segments of its path, whose full spelling is resolved to it.
Any other reference by last segments of the path is resolved to it too or is ambiguous; this
holds behind a reference by table or by schema and table, and in document catalogs behind full
paths as well.
-/
theorem resolve_requalified {catalog : Catalog} {reference : TableRef} {path : TablePath}
    (resolved : catalog.resolve reference = .ok path)
    : reference.names <:+ path.segments
      ∧ (∀ full : TableRef, full.names = path.segments → catalog.resolve full = .ok path)
      ∧ (reference.parts.length < 3
            ∨ (∃ documents : DocumentCatalog, documents.toCatalog = catalog)
          → ∀ other : TableRef,
              other.names <:+ path.segments
              → catalog.ResolvesUnlessAmbiguous other path) := by
  refine ⟨(Catalog.of_resolve_eq_ok resolved).1, ?_, ?_⟩
  · intro full spelled
    exact Catalog.resolve_of_segments resolved spelled
  · intro known other ending
    have lists : catalog.Lists path := by
      rcases known with short | ⟨documents, rfl⟩
      · exact Catalog.lists_of_resolve resolved short
      · exact DocumentCatalog.lists_of_resolve resolved
    exact lists.resolvesUnlessAmbiguous ending

/-- A catalog of one database with a schema and a table. -/
def oneRegion : DocumentCatalog :=
  DocumentCatalog.empty.insertTable ⟨"north", "public", "orders"⟩ []

/-- The catalog with a schema of the same name in a second database. -/
def twoRegions : DocumentCatalog :=
  oneRegion.insertTable ⟨"south", "public", "users"⟩ []

/-- A table that is the only one of its name is still found, or asked to be told apart, where
its schema is named too.
-/
theorem resolve_orders_with_schema
    : ∃ reference other : TableRef,
        twoRegions.toCatalog.resolve reference = .ok ⟨"north", "public", "orders"⟩
        ∧ other.names = ["public", "orders"]
        ∧ twoRegions.toCatalog.ResolvesUnlessAmbiguous other
            ⟨"north", "public", "orders"⟩ := by
  obtain ⟨reference, named⟩ :=
    TableRef.exists_of_names (List.cons_ne_nil "orders" []) (by decide)
  obtain ⟨other, otherNamed⟩ :=
    TableRef.exists_of_names (List.cons_ne_nil "public" ["orders"]) (by decide)
  have resolved
      : twoRegions.toCatalog.resolve reference = .ok ⟨"north", "public", "orders"⟩ :=
    Catalog.resolve_of_pathsOfTable named (by decide)
  obtain ⟨_, _, behind⟩ := resolve_requalified resolved
  have ending : other.names <:+ ["north", "public", "orders"] := ⟨["north"], by simp [otherNamed]⟩
  exact ⟨reference, other, resolved, otherNamed, behind (Or.inr ⟨_, rfl⟩) other ending⟩

end TableQuery
