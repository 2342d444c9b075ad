import TableQuery.Proofs.Answers.Traversals
import TableQuery.ResultSet

/-! Projection yields every requested value of every stored row, or reports the first that
is missing.
-/

namespace TableQuery

/-- A record has a value in every requested column. -/
def Record.Covers (record : Record) (columns : List String) : Prop :=
  ∀ column ∈ columns, (record.get? column).isSome

instance (record : Record) (columns : List String) : Decidable (record.Covers columns) :=
  inferInstanceAs (Decidable (∀ column ∈ columns, _))

/-- A row answers for a record: the requested columns in requested order, repeats included,
with the values that the record has in them.
-/
def Row.Answers (columns : List String) (record : Record) (row : Row) : Prop :=
  List.Forall₂ (fun column entry => entry.1 = column ∧ record.get? column = some entry.2)
    columns row.values

theorem value_eq_ok_iff {record : Record} {column : Identifier} {entry : String × Json}
    : record.value column = .ok entry
      ↔ entry.1 = column.name ∧ record.get? column.name = some entry.2 := by
  obtain ⟨name, value⟩ := entry
  rw [Record.value]
  split <;> rename_i found <;> simp [found, eq_comm]

theorem value_eq_error_iff {record : Record} {column : Identifier} {diagnostic : Diagnostic}
    : record.value column = .error diagnostic
      ↔ record.get? column.name = none
        ∧ diagnostic = .semantic (.unknownColumn column.name) (some column.span) := by
  rw [Record.value]
  split <;> rename_i found <;> simp [found, eq_comm]

/-- Some row answers for a record exactly if the record covers the columns. -/
theorem exists_answers_iff {columns : List String} {record : Record}
    : (∃ row, Row.Answers columns record row) ↔ record.Covers columns := by
  have entries : (∃ values, Row.Answers columns record ⟨values⟩) ↔ record.Covers columns := by
    simp [Row.Answers, exists_forall₂_iff, Record.Covers, Option.isSome_iff_exists]
  rw [← entries]
  exact ⟨fun ⟨row, answers⟩ => ⟨row.values, answers⟩, fun ⟨_, answers⟩ => ⟨_, answers⟩⟩

/-- A record has one answer only, because a column has one value in it. -/
theorem Row.Answers.unique {columns : List String} {record : Record} {left right : Row}
    (leftAnswers : left.Answers columns record) (rightAnswers : right.Answers columns record)
    : left = right := by
  have oneValue : Relator.RightUnique (fun (column : String) (entry : String × Json) =>
      entry.1 = column ∧ record.get? column = some entry.2) := by
    intro column entry other ⟨named, found⟩ ⟨otherNamed, otherFound⟩
    have sameValue := Option.some.inj (found.symm.trans otherFound)
    exact Prod.ext (named.trans otherNamed.symm) sameValue
  have sameValues : left.values = right.values :=
    List.right_unique_forall₂' oneValue leftAnswers rightAnswers
  cases left
  cases right
  exact congrArg Row.mk sameValues

/-- The row of a record is read exactly if it answers for the record. -/
theorem mapM_value_eq_ok_iff {columns : List Identifier} {record : Record} {row : Row}
    : Row.mk <$> columns.mapM record.value = .ok row
      ↔ Row.Answers (columns.map TokenOf.name) record row := by
  simp only [map_eq_ok_iff, mapM_eq_ok_iff, value_eq_ok_iff, Row.Answers,
    List.forall₂_map_left_iff]
  constructor
  · intro ⟨values, answers, same⟩
    exact same ▸ answers
  · intro answers
    exact ⟨row.values, answers, rfl⟩

/-- Projection succeeds exactly with the rows that answer for the records, one for each. -/
theorem project_eq_ok_iff {records : List Record} {columns : List Identifier}
    {result : ResultSet}
    : project records columns = .ok result
      ↔ result.columns = columns.map TokenOf.name
        ∧ List.Forall₂ (Row.Answers (columns.map TokenOf.name)) records result.rows := by
  simp only [project, bind_eq_ok_iff, mapM_eq_ok_iff, mapM_value_eq_ok_iff]
  constructor
  · intro ⟨rows, answers, same⟩
    obtain rfl := Except.ok.inj same
    exact ⟨rfl, answers⟩
  · intro ⟨sameColumns, answers⟩
    exact ⟨result.rows, answers, congrArg Except.ok (by rw [← sameColumns])⟩

/-- Projection fails exactly at the first record that misses a requested column, with the
first such column.
-/
theorem project_eq_error_iff {records : List Record} {columns : List Identifier}
    {diagnostic : Diagnostic}
    : project records columns = .error diagnostic
      ↔ ∃ before record behind answered column unread,
          records = before ++ record :: behind
          ∧ (∀ earlier ∈ before, Record.Covers earlier (columns.map TokenOf.name))
          ∧ columns = answered ++ column :: unread
          ∧ (∀ earlier ∈ answered, (record.get? earlier.name).isSome)
          ∧ record.get? column.name = none
          ∧ diagnostic = .semantic (.unknownColumn column.name) (some column.span) := by
  have covered (record : Record) (column : Identifier)
      : (∃ entry, record.value column = .ok entry) ↔ (record.get? column.name).isSome := by
    simp [value_eq_ok_iff, Option.isSome_iff_exists]
  have finished (rows : List Row)
      : ¬ (pure { columns := columns.map TokenOf.name, rows } : Except Diagnostic ResultSet)
          = .error diagnostic :=
    nofun
  simp only [project, bind_eq_error_iff, finished, and_false, exists_false, or_false,
    mapM_eq_error_iff, map_eq_error_iff, mapM_value_eq_ok_iff, exists_answers_iff, covered,
    value_eq_error_iff]
  constructor
  · intro ⟨before, record, behind, records, earlier, answered, column, unread, failed⟩
    exact ⟨before, record, behind, answered, column, unread, records, earlier, failed⟩
  · intro ⟨before, record, behind, answered, column, unread, records, earlier, failed⟩
    exact ⟨before, record, behind, records, earlier, answered, column, unread, failed⟩

/-- Projection of records that cover the columns answers each of them. -/
theorem project_of_covers {records : List Record} {columns : List Identifier}
    (covered : ∀ record ∈ records, Record.Covers record (columns.map TokenOf.name))
    : ∃ rows,
        project records columns = .ok { columns := columns.map TokenOf.name, rows }
        ∧ List.Forall₂ (Row.Answers (columns.map TokenOf.name)) records rows := by
  cases projected : project records columns with
  | ok result =>
      obtain ⟨named, answers⟩ := project_eq_ok_iff.mp projected
      exact ⟨result.rows, by rw [← named], answers⟩
  | error diagnostic =>
      obtain ⟨_, record, _, _, column, _, rfl, _, rfl, _, missing, _⟩ :=
        project_eq_error_iff.mp projected
      have found := covered record (by simp) column.name (by simp)
      simp [missing] at found

/-- Projection of records that do not all cover the columns reports a missing column. -/
theorem project_of_not_covers {records : List Record} {columns : List Identifier}
    (uncovered : ¬ ∀ record ∈ records, Record.Covers record (columns.map TokenOf.name))
    : ∃ column ∈ columns, ∃ record ∈ records,
        record.get? column.name = none
        ∧ project records columns
          = .error (.semantic (.unknownColumn column.name) (some column.span)) := by
  cases projected : project records columns with
  | ok result =>
      obtain ⟨_, answers⟩ := project_eq_ok_iff.mp projected
      have answered := exists_forall₂_iff.mp ⟨result.rows, answers⟩
      exact absurd (fun record member => exists_answers_iff.mp (answered record member))
        uncovered
  | error diagnostic =>
      obtain ⟨_, record, _, _, column, _, rfl, _, rfl, _, missing, rfl⟩ :=
        project_eq_error_iff.mp projected
      exact ⟨column, by simp, record, by simp, missing, rfl⟩

end TableQuery
