import TableQuery.Proofs.Catalogs.DocumentListings

/-! What a document catalog says about every reference.
The searches for a reference count what they find.  Nothing is listed twice in a document, so
finding one place means that there is no other, and each outcome is told by what the document
holds: the path that is meant, or the fault and the part of the reference that has it.
-/

namespace TableQuery

-----------------------------------------------------------------------------------------
-- What a search can find
-----------------------------------------------------------------------------------------

/-- Nothing has a property, one thing alone has it, or two things have it. -/
theorem none_or_only_or_several {α : Type} (held : α → Prop)
    : (∀ thing, ¬ held thing)
      ∨ (∃ thing, held thing ∧ ∀ other, held other → other = thing)
      ∨ ∃ first second, held first ∧ held second ∧ first ≠ second := by
  by_cases some : ∃ thing, held thing
  · obtain ⟨thing, isHeld⟩ := some
    by_cases only : ∀ other, held other → other = thing
    · exact Or.inr (Or.inl ⟨thing, isHeld, only⟩)
    · simp only [not_forall] at only
      obtain ⟨other, otherHeld, different⟩ := only
      exact Or.inr (Or.inr ⟨other, thing, otherHeld, isHeld, different⟩)
  · exact Or.inl (not_exists.mp some)

/-- A search without repeats that is for one thing only finds just this thing. -/
theorem eq_singleton_of_only {α : Type} {found : List α} {sought : α} (nodup : found.Nodup)
    (member : sought ∈ found) (only : ∀ other ∈ found, other = sought)
    : found = [sought] := by
  by_contra differs
  rcases (nodup.ne_singleton_iff sought).mp differs with rfl | ⟨other, another, different⟩
  · cases member
  · exact different (only other another)

/-- A search that finds two things finds more than one. -/
theorem exists_two_of_ne {α : Type} {found : List α} {first second : α}
    (firstMember : first ∈ found) (secondMember : second ∈ found) (different : first ≠ second)
    : ∃ one other more, found = one :: other :: more := by
  match found with
  | [] => cases firstMember
  | [one] =>
      rw [List.mem_singleton] at firstMember secondMember
      exact absurd (firstMember.trans secondMember.symm) different
  | one :: other :: more => exact ⟨one, other, more, rfl⟩

/-- Names in ascending order are listed once. -/
theorem nodup_of_ascending {names : List String} (ascending : names.Pairwise (· < ·))
    : names.Nodup := by
  refine ascending.imp ?_
  rintro left right less rfl
  exact String.lt_irrefl left less

-----------------------------------------------------------------------------------------
-- What a document settles
-----------------------------------------------------------------------------------------

namespace DocumentCatalog

variable {documents : DocumentCatalog}

/-- A document holds a database of a name. -/
def HasDatabase (documents : DocumentCatalog) (database : String) : Prop :=
  ∃ schemas, documents.content.get? database = some schemas

/-- A database holds a schema of a name, with or without tables. -/
def HasSchema (documents : DocumentCatalog) (database schema : String) : Prop :=
  ∃ schemas tables,
    documents.content.get? database = some schemas ∧ schemas.get? schema = some tables

/-- What a document says about a reference, which is decided by its number of names.
A table alone means the only listed path of its name.  A table with its schema needs a schema
name that one database has, even if a second one has it without the table.  A full path is
followed level by level up to the first one that is missing.
-/
inductive Settles (documents : DocumentCatalog) (reference : TableRef)
    : Except Diagnostic TablePath → Prop
  | onlyTable {table path} (parts : reference.parts = [table])
    (listed : path ∈ documents.toCatalog.tablePaths) (named : path.table = table.name)
    (only
      : ∀ other ∈ documents.toCatalog.tablePaths, other.table = table.name → other = path)
    : Settles documents reference (.ok path)
  | noTable {table} (parts : reference.parts = [table])
    (absent : ∀ path ∈ documents.toCatalog.tablePaths, path.table ≠ table.name)
    : Settles documents reference
        (.error (.semantic (.unknownTable table.name) (some table.span)))
  | severalTables {table first second} (parts : reference.parts = [table])
    (firstListed : first ∈ documents.toCatalog.tablePaths)
    (secondListed : second ∈ documents.toCatalog.tablePaths)
    (firstNamed : first.table = table.name) (secondNamed : second.table = table.name)
    (different : first ≠ second)
    : Settles documents reference
        (.error (.semantic (.ambiguousTable table.name) (some reference.span)))
  | tableInSchema {schema table database} (parts : reference.parts = [schema, table])
    (held : documents.HasSchema database schema.name)
    (only : ∀ other, documents.HasSchema other schema.name → other = database)
    (listed : ⟨database, schema.name, table.name⟩ ∈ documents.toCatalog.tablePaths)
    : Settles documents reference (.ok ⟨database, schema.name, table.name⟩)
  | noSchema {schema table} (parts : reference.parts = [schema, table])
    (absent : ∀ database, ¬ documents.HasSchema database schema.name)
    : Settles documents reference
        (.error (.semantic (.unknownSchema schema.name) (some schema.span)))
  | severalSchemas {schema table first second} (parts : reference.parts = [schema, table])
    (firstHeld : documents.HasSchema first schema.name)
    (secondHeld : documents.HasSchema second schema.name) (different : first ≠ second)
    : Settles documents reference
        (.error (.semantic (.ambiguousSchema schema.name) (some reference.span)))
  | noTableInSchema {schema table database} (parts : reference.parts = [schema, table])
    (held : documents.HasSchema database schema.name)
    (only : ∀ other, documents.HasSchema other schema.name → other = database)
    (unlisted : ⟨database, schema.name, table.name⟩ ∉ documents.toCatalog.tablePaths)
    : Settles documents reference
        (.error (.semantic (.unknownTableInSchema table.name schema.name) (some table.span)))
  | tableInDatabase {database schema table}
    (parts : reference.parts = [database, schema, table])
    (listed : ⟨database.name, schema.name, table.name⟩ ∈ documents.toCatalog.tablePaths)
    : Settles documents reference (.ok ⟨database.name, schema.name, table.name⟩)
  | noDatabase {database schema table} (parts : reference.parts = [database, schema, table])
    (absent : ¬ documents.HasDatabase database.name)
    : Settles documents reference
        (.error (.semantic (.unknownDatabase database.name) (some database.span)))
  | noSchemaInDatabase {database schema table}
    (parts : reference.parts = [database, schema, table])
    (held : documents.HasDatabase database.name)
    (absent : ¬ documents.HasSchema database.name schema.name)
    : Settles documents reference
        (.error (.semantic (.unknownSchemaInDatabase schema.name database.name)
          (some schema.span)))
  | noTableInDatabase {database schema table}
    (parts : reference.parts = [database, schema, table])
    (held : documents.HasSchema database.name schema.name)
    (unlisted
      : ⟨database.name, schema.name, table.name⟩ ∉ documents.toCatalog.tablePaths)
    : Settles documents reference
        (.error (.semantic (.unknownTableInDatabase table.name schema.name database.name)
          (some table.span)))

-----------------------------------------------------------------------------------------
-- What the searches in a document find
-----------------------------------------------------------------------------------------

theorem HasSchema.hasDatabase {database schema : String}
    (held : documents.HasSchema database schema)
    : documents.HasDatabase database := by
  obtain ⟨schemas, _, found, _⟩ := held
  exact ⟨schemas, found⟩

theorem isNone_schemas_iff {database : String}
    : (documents.toCatalog.schemas database).isNone ↔ ¬ documents.HasDatabase database := by
  simp [toCatalog, HasDatabase, Option.eq_none_iff_forall_ne_some]

theorem hasSchema_iff {database schema : String}
    : documents.toCatalog.hasSchema database schema ↔ documents.HasSchema database schema := by
  simp only [Catalog.hasSchema, toCatalog, HasSchema, List.contains_iff_mem]
  cases documents.content.get? database with
  | none => simp
  | some schemas => simp [OrderedMap.mem_keys_iff, Option.isSome_iff_exists]

theorem hasTable_iff_mem {database schema table : String}
    : documents.toCatalog.hasTable database schema table
      ↔ ⟨database, schema, table⟩ ∈ documents.toCatalog.tablePaths :=
  (@hasTable_iff documents ⟨database, schema, table⟩).trans mem_tablePaths_iff.symm

theorem hasSchema_of_mem_tablePaths {path : TablePath}
    (listed : path ∈ documents.toCatalog.tablePaths)
    : documents.HasSchema path.database path.schema :=
  hasSchema_iff.mp (lists_iff_mem_tablePaths.mpr listed).schema

/-- The search for a schema finds the databases that hold it: they are all listed. -/
theorem mem_filter_hasSchema_iff {database schema : String}
    : database ∈ documents.toCatalog.databases.filter
          (documents.toCatalog.hasSchema · schema)
      ↔ documents.HasSchema database schema := by
  rw [List.mem_filter, hasSchema_iff, and_iff_right_iff_imp]
  intro held
  obtain ⟨schemas, found⟩ := held.hasDatabase
  exact (OrderedMap.mem_keys_iff _ _).mpr (Option.isSome_of_eq_some found)

/-- The only database that holds a schema is all that the search for the schema finds. -/
theorem filter_hasSchema_eq_singleton {database schema : String}
    (held : documents.HasSchema database schema)
    (only : ∀ other, documents.HasSchema other schema → other = database)
    : documents.toCatalog.databases.filter (documents.toCatalog.hasSchema · schema)
      = [database] := by
  have nodup := nodup_of_ascending documents.listsAscending.databases
  refine eq_singleton_of_only (nodup.filter _) (mem_filter_hasSchema_iff.mpr held) ?_
  intro other found
  exact only other (mem_filter_hasSchema_iff.mp found)

/-- Of the tables of one schema the search takes the one of a name, if it is listed: it is not
listed twice.
-/
theorem filter_table_eq (documents : DocumentCatalog) (database schema table : String)
    : (((documents.toCatalog.tables database schema).getD []).map
          (TablePath.mk database schema)).filter (fun path => path.table = table)
      = if documents.toCatalog.hasTable database schema table then
          [⟨database, schema, table⟩]
        else
          [] := by
  have ascending := pairwise_getD (documents.listsAscending.tables database schema)
  have once := (nodup_of_ascending ascending).count (a := table)
  rw [List.filter_map]
  simp only [Function.comp_def, List.filter_eq, once, Catalog.hasTable, List.contains_iff_mem]
  split <;> rfl

/-- The search for a table finds the listed paths of its name, in their order. -/
theorem pathsOfTable_eq_filter (documents : DocumentCatalog) (table : String)
    : documents.toCatalog.pathsOfTable table
      = documents.toCatalog.tablePaths.filter (fun path => path.table = table) := by
  have listed
      : documents.toCatalog.tablePaths
        = listedPaths documents.toCatalog.databases documents.toCatalog.schemas
            documents.toCatalog.tables :=
    rfl
  rw [listed, listedPaths, Catalog.pathsOfTable, List.filter_flatMap]
  apply List.flatMap_congr
  intro database _
  rw [List.filter_flatMap]
  simp only [filter_table_eq]
  induction (documents.toCatalog.schemas database).getD [] with
  | nil => rfl
  | cons schema more ih =>
      rw [List.filter_cons, List.flatMap_cons, ← ih]
      split <;> rfl

theorem mem_pathsOfTable_iff_listed {table : String} {path : TablePath}
    : path ∈ documents.toCatalog.pathsOfTable table
      ↔ path ∈ documents.toCatalog.tablePaths ∧ path.table = table := by
  rw [pathsOfTable_eq_filter, List.mem_filter, decide_eq_true_iff]

theorem nodup_pathsOfTable (documents : DocumentCatalog) (table : String)
    : (documents.toCatalog.pathsOfTable table).Nodup := by
  rw [pathsOfTable_eq_filter]
  refine List.Nodup.filter _ ((pairwise_listedPaths documents.listsAscending).imp ?_)
  rintro left right less rfl
  exact List.lt_irrefl _ less

variable {reference : TableRef}

/-- What is settled is what the reference resolves to, search by search: the found places are
those that the document holds, so their number is known.
-/
theorem Settles.resolve_eq {outcome : Except Diagnostic TablePath}
    (settled : documents.Settles reference outcome)
    : documents.toCatalog.resolve reference = outcome := by
  cases settled with
  | @onlyTable table path parts listed named only =>
      have places : documents.toCatalog.pathsOfTable table.name = [path] := by
        refine eq_singleton_of_only (documents.nodup_pathsOfTable _)
          (mem_pathsOfTable_iff_listed.mpr ⟨listed, named⟩) ?_
        intro other found
        obtain ⟨otherListed, otherNamed⟩ := mem_pathsOfTable_iff_listed.mp found
        exact only other otherListed otherNamed
      rw [Catalog.resolve, parts]
      exact Catalog.resolveTable_eq_ok_iff.mpr places
  | @noTable table parts absent =>
      have places : documents.toCatalog.pathsOfTable table.name = [] := by
        refine List.eq_nil_iff_forall_not_mem.mpr ?_
        intro path found
        obtain ⟨listed, named⟩ := mem_pathsOfTable_iff_listed.mp found
        exact absent path listed named
      rw [Catalog.resolve, parts]
      simp only [Catalog.resolveTable, places]
  | severalTables parts firstListed secondListed firstNamed secondNamed different =>
      obtain ⟨one, other, more, places⟩ := exists_two_of_ne
        (mem_pathsOfTable_iff_listed.mpr ⟨firstListed, firstNamed⟩)
        (mem_pathsOfTable_iff_listed.mpr ⟨secondListed, secondNamed⟩) different
      rw [Catalog.resolve, parts]
      simp only [Catalog.resolveTable, places]
  | @tableInSchema schema table database parts held only listed =>
      have places := filter_hasSchema_eq_singleton held only
      rw [Catalog.resolve, parts]
      exact Catalog.resolveInSchema_eq_ok_iff.mpr
        ⟨places, hasTable_iff_mem.mpr listed, rfl, rfl⟩
  | @noSchema schema table parts absent =>
      have places
          : documents.toCatalog.databases.filter
              (documents.toCatalog.hasSchema · schema.name) = [] := by
        refine List.eq_nil_iff_forall_not_mem.mpr ?_
        intro database found
        exact absent database (mem_filter_hasSchema_iff.mp found)
      rw [Catalog.resolve, parts]
      simp only [Catalog.resolveInSchema, places]
  | severalSchemas parts firstHeld secondHeld different =>
      obtain ⟨one, other, more, places⟩ := exists_two_of_ne
        (mem_filter_hasSchema_iff.mpr firstHeld) (mem_filter_hasSchema_iff.mpr secondHeld)
        different
      rw [Catalog.resolve, parts]
      simp only [Catalog.resolveInSchema, places]
  | noTableInSchema parts held only unlisted =>
      have places := filter_hasSchema_eq_singleton held only
      rw [Catalog.resolve, parts]
      simp only [Catalog.resolveInSchema, places, hasTable_iff_mem, if_neg unlisted]
  | @tableInDatabase database schema table parts listed =>
      have held := hasSchema_of_mem_tablePaths listed
      rw [Catalog.resolve, parts]
      exact Catalog.resolveInDatabase_eq_ok_iff.mpr
        ⟨rfl, hasSchema_iff.mpr held, hasTable_iff_mem.mpr listed⟩
  | noDatabase parts absent =>
      rw [Catalog.resolve, parts]
      exact if_pos (isNone_schemas_iff.mpr absent)
  | @noSchemaInDatabase database schema table parts held absent =>
      have known : ¬ (documents.toCatalog.schemas database.name).isNone :=
        mt isNone_schemas_iff.mp (not_not.mpr held)
      have missing : documents.toCatalog.hasSchema database.name schema.name = false :=
        Bool.eq_false_iff.mpr (mt hasSchema_iff.mp absent)
      rw [Catalog.resolve, parts]
      simp only [Catalog.resolveInDatabase, if_neg known, missing, Bool.not_false, if_true]
  | @noTableInDatabase database schema table parts held unlisted =>
      have known : ¬ (documents.toCatalog.schemas database.name).isNone :=
        mt isNone_schemas_iff.mp (not_not.mpr held.hasDatabase)
      have missing
          : documents.toCatalog.hasTable database.name schema.name table.name = false :=
        Bool.eq_false_iff.mpr (mt hasTable_iff_mem.mp unlisted)
      rw [Catalog.resolve, parts]
      simp only [Catalog.resolveInDatabase, if_neg known, hasSchema_iff.mpr held, missing,
        Bool.not_true, Bool.not_false, Bool.false_eq_true, if_false, if_true]

/-- Every reference within the limit is settled in some way, whatever the document holds. -/
theorem exists_settles (inLimit : reference.parts.length ≤ TableRef.maxParts)
    : ∃ outcome, documents.Settles reference outcome := by
  match parts : reference.parts with
  | [] => cases parts
  | [table] =>
      rcases none_or_only_or_several (fun path : TablePath =>
          path ∈ documents.toCatalog.tablePaths ∧ path.table = table.name) with
        absent | ⟨path, ⟨listed, named⟩, only⟩
          | ⟨first, second, ⟨listed, named⟩, ⟨otherListed, otherNamed⟩, different⟩
      · exact ⟨_, .noTable parts (fun path listed named => absent path ⟨listed, named⟩)⟩
      · exact ⟨_, .onlyTable parts listed named
          (fun other listed named => only other ⟨listed, named⟩)⟩
      · exact ⟨_, .severalTables parts listed otherListed named otherNamed different⟩
  | [schema, table] =>
      rcases none_or_only_or_several (documents.HasSchema · schema.name) with
        absent | ⟨database, held, only⟩ | ⟨first, second, held, otherHeld, different⟩
      · exact ⟨_, .noSchema parts absent⟩
      · by_cases listed
          : ⟨database, schema.name, table.name⟩ ∈ documents.toCatalog.tablePaths
        · exact ⟨_, .tableInSchema parts held only listed⟩
        · exact ⟨_, .noTableInSchema parts held only listed⟩
      · exact ⟨_, .severalSchemas parts held otherHeld different⟩
  | [database, schema, table] =>
      by_cases known : documents.HasDatabase database.name
      · by_cases held : documents.HasSchema database.name schema.name
        · by_cases listed
            : ⟨database.name, schema.name, table.name⟩ ∈ documents.toCatalog.tablePaths
          · exact ⟨_, .tableInDatabase parts listed⟩
          · exact ⟨_, .noTableInDatabase parts held listed⟩
        · exact ⟨_, .noSchemaInDatabase parts known held⟩
      · exact ⟨_, .noDatabase parts known⟩
  | _ :: _ :: _ :: _ :: _ =>
      rw [parts] at inLimit
      simp only [List.length_cons, TableRef.maxParts] at inLimit
      omega

end DocumentCatalog

/-- A document catalog determines the outcome of resolving any reference that the reader
yields: the path that is meant, or which fault it has and at which of its parts.
-/
theorem resolve_eq_iff_settles {documents : DocumentCatalog} {reference : TableRef}
    (inLimit : reference.parts.length ≤ TableRef.maxParts)
    (outcome : Except Diagnostic TablePath)
    : documents.toCatalog.resolve reference = outcome
      ↔ documents.Settles reference outcome := by
  constructor
  · rintro rfl
    obtain ⟨outcome, settled⟩ := documents.exists_settles inLimit
    rw [settled.resolve_eq]
    exact settled
  · exact DocumentCatalog.Settles.resolve_eq

/-- A second schema of the same name makes a reference ambiguous, although the table that it
names is in the first one only.
-/
theorem resolve_orders_in_public_ambiguous
    : ∃ reference : TableRef,
        reference.names = ["public", "orders"]
        ∧ reference.parts.length ≤ TableRef.maxParts
        ∧ twoRegions.toCatalog.tablePaths.filter (fun path => path.table = "orders")
          = [⟨"north", "public", "orders"⟩]
        ∧ twoRegions.toCatalog.resolve reference
          = .error (.semantic (.ambiguousSchema "public") (some reference.span)) := by
  obtain ⟨reference, named⟩ :=
    TableRef.exists_of_names (List.cons_ne_nil "public" ["orders"]) (by decide)
  have spelled := named
  simp only [TableRef.names, List.map_eq_cons_iff, List.map_eq_nil_iff] at spelled
  obtain ⟨schema, _, parts, schemaNamed, table, _, rfl, _, rfl⟩ := spelled
  have inLimit : reference.parts.length ≤ TableRef.maxParts := by
    rw [parts]
    exact Nat.le_succ 2
  have north : twoRegions.HasSchema "north" schema.name :=
    schemaNamed ▸ DocumentCatalog.hasSchema_iff.mp (by decide)
  have south : twoRegions.HasSchema "south" schema.name :=
    schemaNamed ▸ DocumentCatalog.hasSchema_iff.mp (by decide)
  have ambiguous :=
    (resolve_eq_iff_settles inLimit _).mpr (.severalSchemas parts north south (by decide))
  exact ⟨reference, named, inLimit, by decide, schemaNamed ▸ ambiguous⟩

end TableQuery
