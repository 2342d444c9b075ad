import TableQuery.Completion
import TableQuery.Proofs.Answers.Traversals
import TableQuery.Proofs.Reading.ParserRuns

/-! The candidates where a reading stops.
Completion looks at what the parser remembers, and that is told by the progress of a reading.
A table is remembered wherever columns are read, so their list is never without one.
-/

namespace TableQuery

/-- A name begins with what was typed of it exactly if that is a prefix of its characters. -/
theorem beginsWith_eq (typed : List Char)
    : beginsWith typed = fun name => decide (typed <+: name.toList) := by
  funext name
  rw [Bool.eq_iff_iff, beginsWith, List.isPrefixOf_iff_prefix, decide_eq_true_iff]

namespace Catalog

variable {catalog : Catalog} {openName : List Char}

/-- Outside of both lists there are no candidates. -/
theorem candidates_outside {progress : Progress} (outside : progress.stoppedIn = none)
    : catalog.candidates progress.context openName = .ok [] := by
  rw [candidates, Progress.stoppedIn_context, outside]

/-- Inside the table reference the candidates are the paths that go on from the names read. -/
theorem candidates_table (partsRead : Option TableRef)
    : catalog.candidates (Progress.table partsRead).context openName
      = .ok ((catalog.tablePaths.filter
          (·.continues (partsRead.elim [] TableRef.names) openName)).map
            TablePath.display) :=
  rfl

/-- Inside the column list the candidates are the columns of the table that the open name can
become, if the table is found.
-/
theorem candidates_columns (table : TableRef) (columnsRead : List Identifier)
    : catalog.candidates (Progress.columns table columnsRead).context openName
      = (catalog.resolve table).map (fun path =>
          ((catalog.columns path).filter (beginsWith openName)).map (·.push quote)) := by
  rw [candidates, Progress.stoppedIn_context]
  rfl

end Catalog

end TableQuery
