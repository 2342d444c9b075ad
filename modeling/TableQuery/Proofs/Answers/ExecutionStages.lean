import TableQuery.Execution
import TableQuery.Proofs.Answers.Projection

/-! The stages of an execution, one after the other.
An answer shows that every stage succeeded; where the stages up to one are known to succeed,
that one decides what is answered.
-/

namespace TableQuery.Catalog

variable {catalog : Catalog}

/-- A text that is read as a statement is answered as that statement. -/
theorem execute_of_read {text : String} {tokens : List Token} {statement : Statement}
    (read : tokensOf text = .ok tokens)
    (accepted : Statement.ofTokens? tokens = .ok statement)
    : catalog.execute text = catalog.executeStatement statement := by
  simp [execute, read, accepted, bind, Except.bind]

/-- A statement whose table is found is answered from the rows of the table. -/
theorem executeStatement_of_resolved {statement : Statement} {path : TablePath}
    {records : List Record}
    (resolved : catalog.resolve statement.fromClause.table = .ok path)
    (stored : catalog.rows path = some records)
    : catalog.executeStatement statement
      = project records statement.selectClause.columns := by
  simp [executeStatement, resolved, stored, bind, Except.bind]

/-- A statement whose table is not found is rejected as its table is. -/
theorem executeStatement_of_rejected {statement : Statement} {diagnostic : Diagnostic}
    (rejected : catalog.resolve statement.fromClause.table = .error diagnostic)
    : catalog.executeStatement statement = .error diagnostic := by
  simp [executeStatement, rejected, bind, Except.bind]

/-- A text is answered where every stored row covers the columns that it asks for. -/
theorem execute_of_covers {text : String} {tokens : List Token} {statement : Statement}
    {path : TablePath} {records : List Record} (read : tokensOf text = .ok tokens)
    (accepted : Statement.ofTokens? tokens = .ok statement)
    (resolved : catalog.resolve statement.fromClause.table = .ok path)
    (stored : catalog.rows path = some records)
    (covered : ∀ record ∈ records, record.Covers statement.selectClause.names)
    : ∃ rows,
        catalog.execute text = .ok { columns := statement.selectClause.names, rows }
        ∧ List.Forall₂ (Row.Answers statement.selectClause.names) records rows := by
  rw [execute_of_read read accepted, executeStatement_of_resolved resolved stored]
  exact project_of_covers covered

/-- A text is rejected where not every stored row covers the columns that it asks for. -/
theorem execute_of_not_covers {text : String} {tokens : List Token} {statement : Statement}
    {path : TablePath} {records : List Record} (read : tokensOf text = .ok tokens)
    (accepted : Statement.ofTokens? tokens = .ok statement)
    (resolved : catalog.resolve statement.fromClause.table = .ok path)
    (stored : catalog.rows path = some records)
    (uncovered : ¬ ∀ record ∈ records, record.Covers statement.selectClause.names)
    : ∃ column ∈ statement.selectClause.columns, ∃ record ∈ records,
        record.get? column.name = none
        ∧ catalog.execute text
          = .error (.semantic (.unknownColumn column.name) (some column.span)) := by
  rw [execute_of_read read accepted, executeStatement_of_resolved resolved stored]
  exact project_of_not_covers uncovered

/-- An answered text was read as a statement whose table was found. -/
theorem exists_statement_of_execute {text : String} {result : ResultSet}
    (answered : catalog.execute text = .ok result)
    : ∃ tokens statement path,
        tokensOf text = .ok tokens
        ∧ Statement.ofTokens? tokens = .ok statement
        ∧ catalog.resolve statement.fromClause.table = .ok path := by
  obtain ⟨tokens, read, behind⟩ := bind_eq_ok_iff.mp answered
  obtain ⟨statement, accepted, executed⟩ := bind_eq_ok_iff.mp behind
  obtain ⟨path, resolved, _⟩ := bind_eq_ok_iff.mp executed
  exact ⟨tokens, statement, path, read, accepted, resolved⟩

end TableQuery.Catalog
