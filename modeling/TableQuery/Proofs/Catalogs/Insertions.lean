import TableQuery.Proofs.Answers.WrittenStatements
import TableQuery.Proofs.Catalogs.Qualification

/-! What insertions into a document catalog change for references.
An insertion changes the rows at its own path and removes no table, so a path that is listed
stays listed, and a reference that is resolved to it is never resolved to another one later.
-/

namespace TableQuery

/-- Looking a name up below a missing map finds nothing, as in an empty map. -/
theorem OrderedMap.get?_getD_empty {α : Type} (map : Option (OrderedMap α)) (name : String)
    : (map.getD .empty).get? name = map.bind (·.get? name) := by
  cases map with
  | none => rfl
  | some map => rfl

namespace DocumentCatalog

/-- Puts tables at their paths, one after the other. -/
def insertTables (documents : DocumentCatalog) (insertions : List (TablePath × List Record))
    : DocumentCatalog :=
  insertions.foldl (fun catalog insertion => catalog.insertTable insertion.1 insertion.2)
    documents

variable (documents : DocumentCatalog)

/-- The rows found at a path after an insertion are the inserted ones or those found there
before.  Each level is replaced by itself with one binding more, so the look-up of another
name on a level goes on as before.
-/
theorem rows_insertTable (path other : TablePath) (rows : List Record)
    : (documents.insertTable path rows).toCatalog.rows other
      = if other = path then some rows else documents.toCatalog.rows other := by
  obtain ⟨database, schema, table⟩ := other
  simp only [toCatalog, insertTable, schemasOf, OrderedMap.get?_insert]
  by_cases sameDatabase : database = path.database
  · subst sameDatabase
    simp only [if_true, Option.bind_some, OrderedMap.get?_insert]
    by_cases sameSchema : schema = path.schema
    · subst sameSchema
      simp only [if_true, Option.bind_some, OrderedMap.get?_insert, OrderedMap.get?_getD_empty]
      by_cases sameTable : table = path.table
      · subst sameTable
        simp
      · have different : TablePath.mk path.database path.schema table ≠ path :=
          fun same => sameTable (congrArg TablePath.table same)
        rw [if_neg sameTable, if_neg different]
    · have different : TablePath.mk path.database schema table ≠ path :=
        fun same => sameSchema (congrArg TablePath.schema same)
      rw [if_neg sameSchema, if_neg different, OrderedMap.get?_getD_empty]
  · have different : TablePath.mk database schema table ≠ path :=
      fun same => sameDatabase (congrArg TablePath.database same)
    rw [if_neg sameDatabase, if_neg different]

/-- A step removes no table. -/
theorem isSome_rows_insertTable {path : TablePath}
    (found : (documents.toCatalog.rows path).isSome) (inserted : TablePath)
    (rows : List Record)
    : ((documents.insertTable inserted rows).toCatalog.rows path).isSome := by
  rw [rows_insertTable]
  split
  · rfl
  · exact found

/-- No run of insertions removes a table, by induction on the run. -/
theorem isSome_rows_insertTables {path : TablePath}
    (found : (documents.toCatalog.rows path).isSome)
    (insertions : List (TablePath × List Record))
    : ((documents.insertTables insertions).toCatalog.rows path).isSome := by
  induction insertions generalizing documents with
  | nil => exact found
  | cons insertion more ih =>
      exact ih _ (documents.isSome_rows_insertTable found insertion.1 insertion.2)

/-- Insertions elsewhere leave the rows at a path as they are, by induction on the run. -/
theorem rows_insertTables_of_ne {path : TablePath}
    {insertions : List (TablePath × List Record)}
    (elsewhere : ∀ insertion ∈ insertions, insertion.1 ≠ path)
    : (documents.insertTables insertions).toCatalog.rows path
      = documents.toCatalog.rows path := by
  induction insertions generalizing documents with
  | nil => rfl
  | cons insertion more ih =>
      rw [List.forall_mem_cons] at elsewhere
      have step := documents.rows_insertTable insertion.1 path insertion.2
      rw [if_neg (Ne.symm elsewhere.1)] at step
      exact (ih _ elsewhere.2).trans step

/-- A document catalog lists exactly the paths that it has rows for. -/
theorem lists_iff_isSome_rows {documents : DocumentCatalog} {path : TablePath}
    : documents.toCatalog.Lists path ↔ (documents.toCatalog.rows path).isSome :=
  lists_iff_mem_tablePaths.trans mem_tablePaths_iff

end DocumentCatalog

/-- A statement never starts to read another table.
After any insertions its reference is still resolved to the same path or has become ambiguous,
which a full path never does.  Where it is resolved and nothing was put at the path itself, the
statement has the same answer, whether rows or a diagnostic.
-/
theorem resolve_after_insertions {documents : DocumentCatalog} {statement : Statement}
    {path : TablePath}
    (resolved : documents.toCatalog.resolve statement.fromClause.table = .ok path)
    (insertions : List (TablePath × List Record))
    : let later := (documents.insertTables insertions).toCatalog
      later.ResolvesUnlessAmbiguous statement.fromClause.table path
      ∧ (statement.fromClause.table.parts.length = 3
        → later.resolve statement.fromClause.table = .ok path)
      ∧ (later.resolve statement.fromClause.table = .ok path
        → (∀ insertion ∈ insertions, insertion.1 ≠ path)
        → later.executeStatement statement
          = documents.toCatalog.executeStatement statement) := by
  intro later
  have found := DocumentCatalog.lists_iff_isSome_rows.mp
    (DocumentCatalog.lists_of_resolve resolved)
  have lists : later.Lists path := DocumentCatalog.lists_iff_isSome_rows.mpr
    (documents.isSome_rows_insertTables found insertions)
  have settled := lists.resolvesUnlessAmbiguous (Catalog.of_resolve_eq_ok resolved).1
  refine ⟨settled, settled.resolve_of_full, ?_⟩
  intro stillResolved elsewhere
  obtain ⟨records, stored⟩ := Option.isSome_iff_exists.mp found
  have storedLater := (documents.rows_insertTables_of_ne elsewhere).trans stored
  rw [Catalog.executeStatement_of_resolved stillResolved storedLater,
    Catalog.executeStatement_of_resolved resolved stored]

/-- A second region with a schema of the same name leaves the answers for a table alone as they
are.
-/
theorem executeStatement_orders_after_insertion
    : ∃ statement : Statement,
        statement.fromClause.table.names = ["orders"]
        ∧ oneRegion.toCatalog.resolve statement.fromClause.table
          = .ok ⟨"north", "public", "orders"⟩
        ∧ twoRegions.toCatalog.executeStatement statement
          = oneRegion.toCatalog.executeStatement statement := by
  obtain ⟨_, statement, _, _, named, _⟩ :=
    @exists_statement_of_written ["orders"] ["id"] (by decide) (by decide) (by decide)
      (by decide)
  have resolved
      : oneRegion.toCatalog.resolve statement.fromClause.table
        = .ok ⟨"north", "public", "orders"⟩ :=
    Catalog.resolve_of_pathsOfTable named (by decide)
  obtain ⟨_, _, unchanged⟩ :=
    resolve_after_insertions resolved [(⟨"south", "public", "users"⟩, [])]
  have stillResolved
      : twoRegions.toCatalog.resolve statement.fromClause.table
        = .ok ⟨"north", "public", "orders"⟩ :=
    Catalog.resolve_of_pathsOfTable named (by decide)
  exact ⟨statement, named, resolved, unchanged stillResolved (by decide)⟩

end TableQuery
