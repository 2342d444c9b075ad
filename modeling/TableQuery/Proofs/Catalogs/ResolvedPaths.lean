import TableQuery.Resolution

/-! What a reference resolves to, for every kind of catalog.
The three searches differ, but each yields a path that ends in the names of the reference and
whose schema lists the table.
-/

namespace TableQuery.Catalog

variable {catalog : Catalog}

/-- The places of a table are the listed schemas that list it. -/
theorem mem_pathsOfTable_iff {table : String} {path : TablePath}
    : path ∈ catalog.pathsOfTable table
      ↔ path.database ∈ catalog.databases
        ∧ path.schema ∈ (catalog.schemas path.database).getD []
        ∧ catalog.hasTable path.database path.schema table
        ∧ path.table = table := by
  obtain ⟨database, schema, name⟩ := path
  simp only [pathsOfTable, List.mem_flatMap, List.mem_map, List.mem_filter, TablePath.mk.injEq]
  constructor
  · intro placed
    obtain ⟨database, listed, schema, ⟨inDatabase, inSchema⟩, rfl, rfl, rfl⟩ := placed
    exact ⟨listed, inDatabase, inSchema, rfl⟩
  · intro listed
    obtain ⟨listed, inDatabase, inSchema, rfl⟩ := listed
    exact ⟨database, listed, schema, ⟨inDatabase, inSchema⟩, rfl, rfl, rfl⟩

theorem resolveTable_eq_ok_iff {reference : TableRef} {table : Identifier} {path : TablePath}
    : catalog.resolveTable reference table = .ok path
      ↔ catalog.pathsOfTable table.name = [path] := by
  rw [resolveTable]
  split
  · rename_i places
    simp [places]
  · rename_i place places
    simp [places, eq_comm]
  · rename_i notEmpty notSingle
    exact iff_of_false nofun (notSingle path)

/-- A table alone is found in a catalog where its name has one place. -/
theorem resolve_of_pathsOfTable {reference : TableRef} {table : String} {path : TablePath}
    (named : reference.names = [table]) (places : catalog.pathsOfTable table = [path])
    : catalog.resolve reference = .ok path := by
  obtain ⟨part, parts, rfl⟩ := List.map_eq_singleton_iff.mp named
  rw [resolve, parts]
  exact resolveTable_eq_ok_iff.mpr places

theorem resolveInSchema_eq_ok_iff {reference : TableRef} {schema table : Identifier}
    {path : TablePath}
    : catalog.resolveInSchema reference schema table = .ok path
      ↔ catalog.databases.filter (catalog.hasSchema · schema.name) = [path.database]
        ∧ catalog.hasTable path.database schema.name table.name
        ∧ path.schema = schema.name
        ∧ path.table = table.name := by
  obtain ⟨database, schemaName, tableName⟩ := path
  rw [resolveInSchema]
  split
  · rename_i places
    simp [places]
  · rename_i place places
    split
    · rename_i found
      simp only [places, Except.ok.injEq, TablePath.mk.injEq, List.cons.injEq, and_true]
      grind
    · rename_i missing
      simp only [places, List.cons.injEq, and_true]
      grind
  · rename_i notEmpty notSingle
    exact iff_of_false nofun (fun places => notSingle database places.1)

theorem resolveInDatabase_eq_ok_iff {database schema table : Identifier} {path : TablePath}
    : catalog.resolveInDatabase database schema table = .ok path
      ↔ path = ⟨database.name, schema.name, table.name⟩
        ∧ catalog.hasSchema database.name schema.name
        ∧ catalog.hasTable database.name schema.name table.name := by
  rw [resolveInDatabase]
  split
  · rename_i unknown
    simp [hasSchema, Option.isNone_iff_eq_none.mp unknown]
  · split
    · rename_i missing
      simp_all
    · split
      · rename_i missing
        simp_all
      · rename_i listed known
        simp only [Bool.not_eq_true', Bool.not_eq_false] at listed known
        simp only [listed, known, Except.ok.injEq, and_self, and_true]
        exact eq_comm

/-- A resolved reference names the last segments of its path, and the path's schema lists the
table.  Witness: the search for the reference's number of names.
-/
theorem of_resolve_eq_ok {reference : TableRef} {path : TablePath}
    (resolved : catalog.resolve reference = .ok path)
    : reference.names <:+ path.segments
      ∧ catalog.hasTable path.database path.schema path.table := by
  rw [resolve] at resolved
  split at resolved
  · rename_i table parts
    have placed : path ∈ catalog.pathsOfTable table.name := by
      simp [resolveTable_eq_ok_iff.mp resolved]
    obtain ⟨_, _, inSchema, named⟩ := mem_pathsOfTable_iff.mp placed
    rw [TableRef.names, parts, List.map_singleton, ← named]
    exact ⟨⟨[path.database, path.schema], rfl⟩, named ▸ inSchema⟩
  · rename_i schema table parts
    obtain ⟨_, inSchema, schemaNamed, tableNamed⟩ := resolveInSchema_eq_ok_iff.mp resolved
    rw [← schemaNamed, ← tableNamed] at inSchema
    rw [TableRef.names, parts, List.map_cons, List.map_singleton, ← schemaNamed, ← tableNamed]
    exact ⟨⟨[path.database], rfl⟩, inSchema⟩
  · rename_i database schema table parts
    obtain ⟨rfl, _, inSchema⟩ := resolveInDatabase_eq_ok_iff.mp resolved
    rw [TableRef.names, parts]
    exact ⟨List.suffix_refl _, inSchema⟩
  · cases resolved

end TableQuery.Catalog
