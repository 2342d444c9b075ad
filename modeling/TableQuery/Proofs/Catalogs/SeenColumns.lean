import TableQuery.Proofs.Catalogs.SettledReferences

/-! The columns that are seen in the rows of a table.
A further row adds to them the columns that no row before it has, in the order of its own
names.  So they are all columns of the rows, each once and in the order of first sight, and
rows that are put behind others never move a column.
-/

namespace TableQuery

/-- A list without repeats is kept as it is, by induction. -/
theorem eraseDups_of_nodup {names : List String} (once : names.Nodup)
    : names.eraseDups = names := by
  induction names with
  | nil => rfl
  | cons name more ih =>
      obtain ⟨notLater, moreOnce⟩ := List.nodup_cons.mp once
      have kept : more.filter (fun other => !other == name) = more := by
        refine List.filter_eq_self.mpr (fun other member => ?_)
        have different : other ≠ name := fun same => notLater (same ▸ member)
        simpa using different
      rw [List.eraseDups_cons, kept, ih moreOnce]

-----------------------------------------------------------------------------------------
-- One row after the other
-----------------------------------------------------------------------------------------

/-- One column is seen before another one where rows are read in order, and the names of each
row in their order: some row has the first column, and the second is neither in front of it
there nor in any earlier row.
-/
def SeenBefore (rows : List Record) (first second : String) : Prop :=
  ∃ earlier row later front back,
    rows = earlier ++ row :: later
    ∧ OrderedMap.keys row = front ++ first :: back
    ∧ (∀ other ∈ earlier, second ∉ OrderedMap.keys other)
    ∧ second ∉ front

/-- Names are all columns of some rows, each once and in the order of first sight. -/
structure ListsAsSeen (rows : List Record) (columns : List String) : Prop where
  complete : ∀ name, name ∈ columns ↔ ∃ row ∈ rows, name ∈ row.keys
  once : columns.Nodup
  ordered : columns.Pairwise (SeenBefore rows)

/-- The columns of a row that are not among the given ones, in the order of its names. -/
def newColumns (columns : List String) (row : Record) : List String :=
  row.keys.filter (fun name => name ∉ columns)

variable {rows : List Record} {columns : List String} {first second : String} {row : Record}

theorem mem_newColumns_iff {name : String}
    : name ∈ newColumns columns row ↔ name ∈ row.keys ∧ name ∉ columns := by
  simp [newColumns]

theorem nodup_newColumns (columns : List String) (row : Record)
    : (newColumns columns row).Nodup :=
  (nodup_of_ascending row.pairwise_keys).filter _

/-- What was seen before stays so, whatever follows. -/
theorem SeenBefore.append (seen : SeenBefore rows first second) (more : List Record)
    : SeenBefore (rows ++ more) first second := by
  obtain ⟨earlier, row, later, front, back, rfl, inRow, notEarlier, notInFront⟩ := seen
  exact ⟨earlier, row, later ++ more, front, back, by simp, inRow, notEarlier, notInFront⟩

/-- A column is seen before every one that no row has so far. -/
theorem SeenBefore.of_absent (isSeen : ∃ row ∈ rows, first ∈ OrderedMap.keys row)
    (absent : ∀ row ∈ rows, second ∉ OrderedMap.keys row)
    : SeenBefore rows first second := by
  obtain ⟨row, isRow, inRow⟩ := isSeen
  obtain ⟨earlier, later, rfl⟩ := List.append_of_mem isRow
  obtain ⟨front, back, split⟩ := List.append_of_mem inRow
  refine ⟨earlier, row, later, front, back, rfl, split, ?_, ?_⟩
  · exact fun other isEarlier => absent other (List.mem_append_left _ isEarlier)
  · intro inFront
    exact absent row isRow (split ▸ List.mem_append_left _ inFront)

/-- Two columns of a row that no earlier row has are seen in the order of their names. -/
theorem SeenBefore.of_lt (inRow : first ∈ row.keys) (less : first < second)
    (absent : ∀ other ∈ rows, second ∉ OrderedMap.keys other)
    : SeenBefore (rows ++ [row]) first second := by
  obtain ⟨front, back, split⟩ := List.append_of_mem inRow
  refine ⟨rows, row, [], front, back, rfl, split, absent, ?_⟩
  intro inFront
  have ascending := row.pairwise_keys
  rw [split] at ascending
  have greater := (List.pairwise_append.mp ascending).2.2 second inFront first (by simp)
  exact String.lt_irrefl first (String.lt_trans less greater)

/-- A further row keeps the order of first sight, if its new columns are put at the end.
New columns are seen behind all old ones, because no row before has them, and among each other
in the order of their names.
-/
theorem ListsAsSeen.step (lists : ListsAsSeen rows columns) (row : Record)
    : ListsAsSeen (rows ++ [row]) (columns ++ newColumns columns row) where
  complete name := by
    simp only [List.mem_append, mem_newColumns_iff, lists.complete, List.mem_singleton,
      or_and_right, exists_or, exists_eq_left]
    by_cases isSeen : ∃ other ∈ rows, name ∈ OrderedMap.keys other <;> simp [isSeen]
  once := by
    refine List.nodup_append.mpr ⟨lists.once, nodup_newColumns columns row, ?_⟩
    rintro old isOld new isNew rfl
    exact (mem_newColumns_iff.mp isNew).2 isOld
  ordered := by
    have absent (name : String) (isNew : name ∈ newColumns columns row)
        : ∀ other ∈ rows, name ∉ OrderedMap.keys other := by
      intro other isRow inOther
      exact (mem_newColumns_iff.mp isNew).2 ((lists.complete name).mpr ⟨other, isRow, inOther⟩)
    refine List.pairwise_append.mpr ⟨?_, ?_, ?_⟩
    · exact lists.ordered.imp (fun seen => seen.append [row])
    · refine (row.pairwise_keys.filter _).imp_of_mem ?_
      intro left right isLeft isRight less
      exact .of_lt (mem_newColumns_iff.mp isLeft).1 less (absent right isRight)
    · intro old isOld new isNew
      have isSeen := (lists.complete old).mp isOld
      exact (SeenBefore.of_absent isSeen (absent new isNew)).append [row]

/-- A further row adds its new columns to those that were seen. -/
theorem seenColumns_concat (rows : List Record) (row : Record)
    : seenColumns (rows ++ [row])
      = seenColumns rows ++ newColumns (seenColumns rows) row := by
  have new
      : row.keys.removeAll (rows.flatMap OrderedMap.keys)
        = newColumns (seenColumns rows) row := by
    refine List.filter_congr (fun name _ => ?_)
    have seen : name ∈ seenColumns rows ↔ name ∈ rows.flatMap OrderedMap.keys :=
      List.mem_eraseDups
    simp only [seen, List.elem_eq_mem, decide_not]
  rw [seenColumns, List.flatMap_append, List.flatMap_singleton, List.eraseDups_append, new,
    eraseDups_of_nodup (nodup_newColumns _ row)]
  rfl

/-- The seen columns are all columns of the rows in the order of first sight, by induction on
the rows from their end.
-/
theorem listsAsSeen_seenColumns (rows : List Record) : ListsAsSeen rows (seenColumns rows) := by
  induction rows using List.reverseRecOn with
  | nil => exact ⟨by simp [seenColumns], .nil, .nil⟩
  | append_singleton rows row ih =>
      rw [seenColumns_concat]
      exact ih.step row

/-- Rows put behind others add columns behind the others, by induction on them from their
end.
-/
theorem seenColumns_prefix_append (rows more : List Record)
    : seenColumns rows <+: seenColumns (rows ++ more) := by
  induction more using List.reverseRecOn with
  | nil => simp
  | append_singleton more row ih =>
      rw [← List.append_assoc, seenColumns_concat]
      exact ih.trans (List.prefix_append _ _)

-----------------------------------------------------------------------------------------
-- Columns of tables
-----------------------------------------------------------------------------------------

/-- Where a store has no listing of columns of its own, a table has the columns of its rows.
Each of them is listed once, in the order in which the rows and the names in each row show them
first, and an unknown table has none.  Rows that are put behind the others may add columns at
the end of the list, but they move none.
-/
theorem columns_as_seen {catalog : Catalog} (provided : catalog.columns = catalog.shared.columns)
    (path : TablePath)
    : (∀ name,
        name ∈ catalog.columns path
        ↔ ∃ rows, catalog.rows path = some rows ∧ ∃ row ∈ rows, (row.get? name).isSome)
      ∧ (catalog.columns path).Nodup
      ∧ (∀ rows,
          catalog.rows path = some rows
          → (catalog.columns path).Pairwise (SeenBefore rows))
      ∧ (catalog.rows path = none → catalog.columns path = [])
      ∧ ∀ later : Catalog,
          later.columns = later.shared.columns
          → ∀ rows more,
              catalog.rows path = some rows
              → later.rows path = some (rows ++ more)
              → catalog.columns path <+: later.columns path := by
  have listed (store : Catalog) (provided : store.columns = store.shared.columns)
      : store.columns path = seenColumns ((store.rows path).getD []) :=
    congrFun provided path
  have lists := listsAsSeen_seenColumns ((catalog.rows path).getD [])
  rw [← listed catalog provided] at lists
  refine ⟨fun name => ?_, lists.once, ?_, ?_, ?_⟩
  · rw [lists.complete]
    cases catalog.rows path with
    | none => simp
    | some rows => simp [OrderedMap.mem_keys_iff]
  · intro rows found
    simpa only [found, Option.getD_some] using lists.ordered
  · intro absent
    rw [listed catalog provided, absent]
    rfl
  · intro later laterProvided rows more found foundLater
    rw [listed catalog provided, listed later laterProvided, found, foundLater]
    exact seenColumns_prefix_append rows more

/-- The rows of a table show `id` before `age`, and a row put behind them, which shows `admin`
first, moves neither.
-/
theorem columns_of_sparse_rows
    : let users : TablePath := ⟨"shop", "public", "users"⟩
      let rows : List Record :=
        [.ofList [("id", .null)], .ofList [("age", .null), ("id", .null), ("name", .null)]]
      let more : List Record := [.ofList [("admin", .null), ("name", .null)]]
      let documents := DocumentCatalog.empty.insertTable users rows
      let later := documents.insertTable users (rows ++ more)
      documents.toCatalog.columns = documents.toCatalog.shared.columns
      ∧ documents.toCatalog.rows users = some rows
      ∧ documents.toCatalog.columns users = ["id", "age", "name"]
      ∧ later.toCatalog.rows users = some (rows ++ more)
      ∧ documents.toCatalog.columns users <+: later.toCatalog.columns users := by
  intro users rows more documents later
  have found : documents.toCatalog.rows users = some rows := by
    simp only [documents, DocumentCatalog.rows_insertTable, if_true]
  have foundLater : later.toCatalog.rows users = some (rows ++ more) := by
    simp only [later, DocumentCatalog.rows_insertTable, if_true]
  have provided : documents.toCatalog.columns = documents.toCatalog.shared.columns := rfl
  obtain ⟨_, _, _, _, append⟩ := columns_as_seen provided users
  exact ⟨provided, found, by decide +kernel, foundLater,
    append later.toCatalog rfl rows more found foundLater⟩

end TableQuery
