import TableQuery.Proofs.Answers.Projection

/-! What a projection shows of each stored row, and what it reports instead.
A row answers for a record pair by pair.  Looking a column up in it finds what the record has,
repeated columns included, because all pairs of one name hold the same value.  Where a column
is missing, records are searched before columns.
-/

namespace TableQuery

-----------------------------------------------------------------------------------------
-- Rows
-----------------------------------------------------------------------------------------

/-- A row shows of a record the requested columns in requested order, each with the value that
the record has in it, and nothing else.
-/
structure Row.Projects (names : List String) (record : Record) (row : Row) : Prop where
  columns_eq : row.columns = names
  pairs
    : ∀ (index : Nat) (name : String),
        names[index]? = some name
        → ∃ value,
            record.get? name = some value
            ∧ row.values[index]? = some (name, value)
  get?_eq : ∀ name, row.get? name = if name ∈ names then record.get? name else none

namespace Row.Answers

variable {names : List String} {record : Record} {row : Row}

/-- The names of an answer are the requested ones, pair by pair. -/
theorem columns_eq (answers : row.Answers names record) : row.columns = names := by
  obtain ⟨values⟩ := row
  simp only [Row.Answers, Row.columns] at answers ⊢
  induction answers with
  | nil => rfl
  | @cons name entry names values first below ih => rw [List.map_cons, first.1, ih]

/-- The value of a requested column is the record's, by induction over the pairs: the first
pair of a name holds the one value that the record has there.
-/
theorem get?_eq (answers : row.Answers names record) (name : String)
    : row.get? name = if name ∈ names then record.get? name else none := by
  obtain ⟨values⟩ := row
  simp only [Row.Answers, Row.get?] at answers ⊢
  induction answers with
  | nil => rfl
  | @cons requested entry names values first below ih =>
      obtain ⟨named, found⟩ := first
      by_cases same : requested = name
      · subst same
        simp [named, found]
      · simp [named, same, Ne.symm same, ih]

/-- Answering for a record is projecting it: the pairs stand at the places of their names. -/
theorem iff_projects : row.Answers names record ↔ row.Projects names record := by
  constructor
  · intro answers
    refine ⟨answers.columns_eq, ?_, answers.get?_eq⟩
    intro index name requested
    obtain ⟨inNames, rfl⟩ := List.getElem?_eq_some_iff.mp requested
    obtain ⟨sameLength, pairwise⟩ := List.forall₂_iff_get.mp answers
    have inValues : index < row.values.length := sameLength ▸ inNames
    obtain ⟨named, found⟩ := pairwise index inNames inValues
    refine ⟨_, found, ?_⟩
    rw [List.getElem?_eq_getElem inValues]
    exact congrArg some (Prod.ext named rfl)
  · intro projects
    have sameLength : names.length = row.values.length := by
      rw [← projects.columns_eq, Row.columns, List.length_map]
    refine List.forall₂_iff_get.mpr ⟨sameLength, ?_⟩
    intro index inNames inValues
    obtain ⟨value, found, placed⟩ :=
      projects.pairs index names[index] (List.getElem?_eq_getElem inNames)
    rw [List.getElem?_eq_getElem inValues, Option.some.injEq] at placed
    rw [List.get_eq_getElem, List.get_eq_getElem, placed]
    exact ⟨rfl, found⟩

end Row.Answers

-----------------------------------------------------------------------------------------
-- Missing columns
-----------------------------------------------------------------------------------------

/-- A column is the first one that is missing from the first record that misses any, and it is
where the requested columns name it first.
-/
structure FirstMissing (records : List Record) (columns : List Identifier) (record : Record)
    (column : Identifier)
    : Prop where
  record_eq
    : records.find? (fun stored => ¬ stored.Covers (columns.map TokenOf.name)) = some record
  column_eq : columns.find? (fun requested => (record.get? requested.name).isNone) = some column
  namedFirst : columns.find? (fun requested => requested.name == column.name) = some column

/-- A column in front of which no column is missing from the record is the first one missing,
and the first one of its name, because its name is missing wherever it is requested.
-/
theorem firstMissing_iff {records : List Record} {columns : List Identifier} {record : Record}
    {column : Identifier}
    : FirstMissing records columns record column
      ↔ ∃ before behind answered unread,
          records = before ++ record :: behind
          ∧ (∀ earlier ∈ before, Record.Covers earlier (columns.map TokenOf.name))
          ∧ columns = answered ++ column :: unread
          ∧ (∀ earlier ∈ answered, (record.get? earlier.name).isSome)
          ∧ record.get? column.name = none := by
  constructor
  · rintro ⟨recordFound, columnFound, _⟩
    obtain ⟨_, before, behind, whole, covered⟩ := List.find?_eq_some_iff_append.mp recordFound
    obtain ⟨missing, answered, unread, requested, found⟩ :=
      List.find?_eq_some_iff_append.mp columnFound
    exact ⟨before, behind, answered, unread, whole, by simpa using covered, requested,
      by simpa using found, by simpa using missing⟩
  · rintro ⟨before, behind, answered, unread, rfl, covered, rfl, found, missing⟩
    refine ⟨List.find?_eq_some_iff_append.mpr ⟨?_, before, behind, rfl, by simpa using covered⟩,
      List.find?_eq_some_iff_append.mpr
        ⟨by simpa using missing, answered, unread, rfl, by simpa using found⟩,
      List.find?_eq_some_iff_append.mpr ⟨by simp, answered, unread, rfl, ?_⟩⟩
    · have uncovered : ¬ record.Covers ((answered ++ column :: unread).map TokenOf.name) := by
        intro covers
        have present := covers column.name (by simp)
        simp [missing] at present
      exact decide_eq_true uncovered
    · intro earlier member
      have present := found earlier member
      have different : earlier.name ≠ column.name := by
        intro same
        simp [same, missing] at present
      simpa using different

/-- Projection is exact and all or nothing.
It succeeds exactly if every record has every requested column.  The result then names the
requested columns and has one row for each record in the same order, which shows of its record
exactly these columns.  Otherwise the first missing column of the first record that misses any
is reported, at the place where it is first requested.
-/
theorem project_exact (records : List Record) (columns : List Identifier)
    : let names := columns.map TokenOf.name
      ((∃ result, project records columns = .ok result)
        ↔ ∀ record ∈ records, record.Covers names)
      ∧ (∀ result,
          project records columns = .ok result
          ↔ result.columns = names ∧ List.Forall₂ (Row.Projects names) records result.rows)
      ∧ ∀ diagnostic,
          project records columns = .error diagnostic
          ↔ ∃ record column,
              FirstMissing records columns record column
              ∧ diagnostic = .semantic (.unknownColumn column.name) (some column.span)
              ∧ diagnostic.message = s!"Unknown column '{column.name}'" := by
  intro names
  refine ⟨⟨?_, ?_⟩, ?_, ?_⟩
  · rintro ⟨result, projected⟩ record member
    obtain ⟨_, answers⟩ := project_eq_ok_iff.mp projected
    have answered := exists_forall₂_iff.mp ⟨result.rows, answers⟩
    exact exists_answers_iff.mp (answered record member)
  · intro covered
    obtain ⟨rows, projected, _⟩ := project_of_covers covered
    exact ⟨_, projected⟩
  · intro result
    have sameRows : Row.Answers names = Row.Projects names :=
      funext₂ fun _ _ => propext Row.Answers.iff_projects
    rw [project_eq_ok_iff, sameRows]
  · intro diagnostic
    rw [project_eq_error_iff]
    constructor
    · rintro ⟨before, record, behind, answered, column, unread, whole, covered, requested,
        found, missing, rfl⟩
      exact ⟨record, column,
        firstMissing_iff.mpr
          ⟨before, behind, answered, unread, whole, covered, requested, found, missing⟩,
        rfl, rfl⟩
    · rintro ⟨record, column, first, rfl, _⟩
      obtain ⟨before, behind, answered, unread, whole, covered, requested, found, missing⟩ :=
        firstMissing_iff.mp first
      exact ⟨before, record, behind, answered, column, unread, whole, covered, requested,
        found, missing, rfl⟩

/-- A row is answered, but no row is if another one misses the column. -/
example
    : let complete : Record := .ofList [("id", .null), ("total", .bool true)]
      let incomplete : Record := .ofList [("id", .null)]
      let total : Identifier := {
        token := {
          kind := .identifier
          lexeme := "\"total\""
          span := .endOfInput
          recognized := by decide
        }
        kind_eq := rfl
      }
      project [complete] [total]
        = .ok { columns := ["total"], rows := [⟨[("total", .bool true)]⟩] }
      ∧ project [complete, incomplete] [total]
        = .error (.semantic (.unknownColumn "total") (some total.span)) :=
  ⟨rfl, rfl⟩

end TableQuery
