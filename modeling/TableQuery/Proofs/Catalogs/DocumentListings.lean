import Mathlib.Data.List.Sort
import TableQuery.Proofs.Catalogs.Insertions

/-! A document catalog is a map from paths to rows.
Its maps hold nothing but their bindings, so maps with the same look-ups are equal and the
order of insertions at different paths does not matter.  What a level lists is what the next
look-up finds, in ascending order, and the listing of all paths follows these listings.
-/

namespace TableQuery

namespace OrderedMap

variable {α : Type} (map : OrderedMap α)

/-- The bindings of a name are what a look-up of it finds, by induction over the entries: a
name is not bound again behind its own entry.
-/
theorem mem_entries_iff {name : String} {value : α}
    : (name, value) ∈ map.entries ↔ map.get? name = some value := by
  obtain ⟨entries, ascending⟩ := map
  simp only [get?]
  induction entries with
  | nil => simp
  | cons head rest ih =>
      obtain ⟨first, kept⟩ := head
      obtain ⟨above, ordered⟩ := List.pairwise_cons.mp ascending
      by_cases same : first = name
      · subst same
        have absent : (first, value) ∉ rest := fun member =>
          String.lt_irrefl first (above _ member)
        simp [absent, eq_comm]
      · simpa [same, Ne.symm same] using ih ordered

variable {map}

/-- Maps with the same look-ups are equal, because entries in order are determined by what
they bind.
-/
theorem ext_get? {other : OrderedMap α} (same : ∀ name, map.get? name = other.get? name)
    : map = other := by
  have : Std.Irrefl (fun left right : String × α => left.1 < right.1) :=
    ⟨fun entry => String.lt_irrefl entry.1⟩
  have : Std.Antisymm (fun left right : String × α => left.1 < right.1) :=
    ⟨fun left _ less greater =>
      absurd (String.lt_trans less greater) (String.lt_irrefl left.1)⟩
  refine OrderedMap.ext (map.ascending.eq_of_mem_iff other.ascending ?_)
  rintro ⟨name, value⟩
  rw [mem_entries_iff, mem_entries_iff, same]

/-- Of two insertions of one name the later one stays. -/
theorem insert_insert_self (name : String) (first second : α)
    : (map.insert name first).insert name second = map.insert name second := by
  apply ext_get?
  intro other
  simp only [get?_insert]
  split <;> rfl

/-- Insertions of different names can be exchanged. -/
theorem insert_comm {name other : String} (different : name ≠ other) (first second : α)
    : (map.insert name first).insert other second
      = (map.insert other second).insert name first := by
  apply ext_get?
  intro sought
  simp only [get?_insert]
  by_cases isName : sought = name
  · rw [if_neg (isName ▸ different), if_pos isName, if_pos isName]
  · rw [if_neg isName, if_neg isName]

/-- The map with the value of one name changed; a missing name gets a value first. -/
def modify (map : OrderedMap α) (missing : α) (name : String) (change : α → α)
    : OrderedMap α :=
  map.insert name (change ((map.get? name).getD missing))

/-- Changes can be exchanged if they are made at different names, or if what they do to one
value can be exchanged.
-/
theorem modify_comm {missing : α} {name other : String} {change changeOther : α → α}
    (exchange
      : name = other → ∀ value, changeOther (change value) = change (changeOther value))
    : (map.modify missing name change).modify missing other changeOther
      = (map.modify missing other changeOther).modify missing name change := by
  simp only [modify, get?_insert]
  by_cases same : name = other
  · subst same
    simp only [if_true, Option.getD_some, insert_insert_self, exchange rfl]
  · rw [if_neg (Ne.symm same), if_neg same]
    exact insert_comm same _ _

end OrderedMap

-----------------------------------------------------------------------------------------
-- Runs of insertions
-----------------------------------------------------------------------------------------

namespace DocumentCatalog

variable (documents : DocumentCatalog)

/-- The rows at a path are those of the last insertion there, or else those that were there
before, by induction on the run from its end.
-/
theorem rows_insertTables (insertions : List (TablePath × List Record)) (path : TablePath)
    : (documents.insertTables insertions).toCatalog.rows path
      = ((insertions.reverse.find? (fun insertion => insertion.1 = path)).map Prod.snd).or
          (documents.toCatalog.rows path) := by
  induction insertions using List.reverseRecOn with
  | nil => rfl
  | append_singleton insertions last ih =>
      have step
          : documents.insertTables (insertions ++ [last])
            = (documents.insertTables insertions).insertTable last.1 last.2 := by
        rw [insertTables, List.foldl_append]
        rfl
      rw [step, rows_insertTable, List.reverse_concat, List.find?_cons]
      by_cases here : last.1 = path
      · simp [here]
      · simpa [here, Ne.symm here] using ih

/-- An insertion changes one database at one schema, and there one table. -/
theorem content_insertTable (path : TablePath) (rows : List Record)
    : (documents.insertTable path rows).content
      = documents.content.modify .empty path.database
          (·.modify .empty path.schema (·.insert path.table rows)) :=
  rfl

/-- Insertions at different paths can be exchanged, level by level: where two names are the
same, the changes below them are made at different paths still.
-/
theorem insertTable_comm {first second : TablePath} (different : first ≠ second)
    (rows others : List Record)
    : (documents.insertTable first rows).insertTable second others
      = (documents.insertTable second others).insertTable first rows := by
  obtain ⟨database, schema, table⟩ := first
  obtain ⟨otherDatabase, otherSchema, otherTable⟩ := second
  apply DocumentCatalog.ext
  simp only [content_insertTable]
  apply OrderedMap.modify_comm
  rintro rfl schemas
  apply OrderedMap.modify_comm
  rintro rfl tables
  apply OrderedMap.insert_comm
  rintro rfl
  exact different rfl

end DocumentCatalog

-----------------------------------------------------------------------------------------
-- Listings
-----------------------------------------------------------------------------------------

namespace Catalog

/-- Every look-up succeeds exactly for the names that the level above it lists. -/
structure FindsWhatItLists (catalog : Catalog) : Prop where
  schemas
    : ∀ database, (catalog.schemas database).isSome ↔ database ∈ catalog.databases
  tables
    : ∀ database schema,
        (catalog.tables database schema).isSome
          ↔ ∃ names, catalog.schemas database = some names ∧ schema ∈ names
  rows
    : ∀ path,
        (catalog.rows path).isSome
          ↔ ∃ names, catalog.tables path.database path.schema = some names ∧ path.table ∈ names

/-- Names are listed in strictly ascending order on every level. -/
structure ListsAscending (catalog : Catalog) : Prop where
  databases : catalog.databases.Pairwise (· < ·)
  schemas
    : ∀ database names, catalog.schemas database = some names → names.Pairwise (· < ·)
  tables
    : ∀ database schema names,
        catalog.tables database schema = some names → names.Pairwise (· < ·)

end Catalog

/-- Names listed at an absent level are in order too, because there are none. -/
theorem pairwise_getD {listed : Option (List String)}
    (ascending : ∀ names, listed = some names → names.Pairwise (· < ·))
    : (listed.getD []).Pairwise (· < ·) := by
  cases listed with
  | none => exact .nil
  | some names => exact ascending names rfl

/-- Where each level lists names in ascending order, paths are listed in ascending order of
their names, the outermost first.
-/
theorem pairwise_listedPaths {catalog : Catalog} (ascending : catalog.ListsAscending)
    : (listedPaths catalog.databases catalog.schemas catalog.tables).Pairwise
        (fun left right => left.segments < right.segments) := by
  simp only [listedPaths, List.pairwise_flatMap, List.pairwise_map, List.mem_flatMap,
    List.mem_map, TablePath.segments]
  refine ⟨?_, ?_⟩
  · intro database _
    refine ⟨?_, ?_⟩
    · intro schema _
      refine (pairwise_getD (ascending.tables database schema)).imp ?_
      intro left right less
      simp [List.cons_lt_cons_iff, less]
    · refine (pairwise_getD (ascending.schemas database)).imp ?_
      rintro schema other less _ ⟨table, _, rfl⟩ _ ⟨otherTable, _, rfl⟩
      simp [List.cons_lt_cons_iff, less]
  · refine ascending.databases.imp ?_
    rintro database other less _ ⟨schema, _, table, _, rfl⟩
      _ ⟨otherSchema, _, otherTable, _, rfl⟩
    simp [List.cons_lt_cons_iff, less]

namespace DocumentCatalog

variable (documents : DocumentCatalog)

/-- A document finds what it lists, because the names of a map are those that it binds. -/
theorem findsWhatItLists : documents.toCatalog.FindsWhatItLists where
  schemas database := by
    simp [toCatalog, OrderedMap.mem_keys_iff]
  tables database schema := by
    cases found : documents.content.get? database with
    | none => simp [toCatalog, found]
    | some schemas => simp [toCatalog, found, OrderedMap.mem_keys_iff]
  rows path := by
    simp only [toCatalog]
    cases (documents.content.get? path.database).bind (·.get? path.schema) with
    | none => simp
    | some tables => simp [OrderedMap.mem_keys_iff]

/-- A document lists names in ascending order, because maps do. -/
theorem listsAscending : documents.toCatalog.ListsAscending where
  databases := documents.content.pairwise_keys
  schemas database names listed := by
    obtain ⟨schemas, _, rfl⟩ := Option.map_eq_some_iff.mp listed
    exact schemas.pairwise_keys
  tables database schema names listed := by
    obtain ⟨tables, _, rfl⟩ := Option.map_eq_some_iff.mp listed
    exact tables.pairwise_keys

end DocumentCatalog

/-- However a document catalog was filled, it is a map from paths to rows.
At each path it has the rows that were put there last.  It lists exactly the paths that have
rows, each once and in ascending order, its look-ups find what the level above them lists, and
insertions at different paths can be exchanged.
-/
theorem insertions_keep_path_map (documents : DocumentCatalog)
    (insertions : List (TablePath × List Record))
    : let later := documents.insertTables insertions
      let catalog := later.toCatalog
      (∀ path,
        catalog.rows path
          = ((insertions.reverse.find? (fun insertion => insertion.1 = path)).map Prod.snd).or
              (documents.toCatalog.rows path))
      ∧ catalog.tablePaths.Pairwise (fun left right => left.segments < right.segments)
      ∧ catalog.tablePaths.Nodup
      ∧ (∀ path, path ∈ catalog.tablePaths ↔ (catalog.rows path).isSome)
      ∧ catalog.FindsWhatItLists
      ∧ catalog.ListsAscending
      ∧ (∀ first second rows others,
          first ≠ second
          → (later.insertTable first rows).insertTable second others
            = (later.insertTable second others).insertTable first rows) := by
  intro later catalog
  have ascending := later.listsAscending
  have paths := pairwise_listedPaths ascending
  refine ⟨documents.rows_insertTables insertions, paths, ?_,
    fun _ => DocumentCatalog.mem_tablePaths_iff, later.findsWhatItLists, ascending, ?_⟩
  · refine paths.imp ?_
    rintro left right less rfl
    exact List.lt_irrefl _ less
  · intro first second rows others different
    exact later.insertTable_comm different rows others

/-- Two tables of one schema can be put there in either order. -/
theorem insert_orders_and_users
    : let orders : TablePath := ⟨"shop", "public", "orders"⟩
      let users : TablePath := ⟨"shop", "public", "users"⟩
      orders ≠ users
      ∧ (DocumentCatalog.empty.insertTable orders []).insertTable users []
        = (DocumentCatalog.empty.insertTable users []).insertTable orders [] := by
  intro orders users
  have different : orders ≠ users := by decide
  obtain ⟨_, _, _, _, _, _, exchange⟩ := insertions_keep_path_map .empty []
  exact ⟨different, exchange orders users [] [] different⟩

end TableQuery
