import Mathlib.Data.List.Infix
import TableQuery.Proofs.Answers.WrittenStatements
import TableQuery.Proofs.Completion.OpenNames
import TableQuery.Proofs.Completion.StoppedCandidates
import TableQuery.Proofs.Reading.InterruptedReading

/-! What is suggested at every cursor of a statement that can be answered.
The text before a cursor is split into complete lexemes and an open name, the lexemes are
read as the front part of the statement, and where that part stops decides what is listed.
-/

namespace TableQuery

theorem continuesFrom_append (typed : List String) {openName : List Char} {next : String}
    (behind : List String) (begins : openName <+: next.toList)
    : continuesFrom typed openName (typed ++ next :: behind) := by
  simp [continuesFrom, beginsWith, begins]

/-- A path continues a reference whose names are its last segments, up to any of them: the
endings of a path that are not empty are those that completion tries.
-/
theorem TablePath.continues_of_suffix {path : TablePath} {typed behind : List String}
    {next : String} {openName : List Char} (begins : openName <+: next.toList)
    (suffix : typed ++ next :: behind <:+ path.segments)
    : path.continues typed openName := by
  have ending := (List.mem_tails _ _).mpr suffix
  rw [continues, List.any_eq_true]
  refine ⟨typed ++ next :: behind, ?_, continuesFrom_append typed behind begins⟩
  simpa [segments] using ending

variable {catalog : Catalog}

namespace Catalog

/-- Behind complete lexemes that have been read so far, the candidates are those of the place
where the reading stopped.
-/
theorem suggest_eq_candidates {typed : String} {gap openName : List Char}
    {read : List SpacedLexeme} {progress : Progress}
    (apart : read.IsChain SpacedLexeme.Apart) (blank : ∀ c ∈ gap, isSeparator c)
    (split
      : TypedText.ofChars typed.toList
        = { complete := SpacedLexeme.spell read ++ gap, openName })
    (reading : (Statement.read (SpacedLexeme.tokensFrom .first read)).ReadUpTo progress)
    : catalog.suggest typed = catalog.candidates progress.context openName := by
  have tokens : tokensOf (String.ofList (SpacedLexeme.spell read ++ gap))
      = .ok (SpacedLexeme.tokensFrom .first read) :=
    tokensOf_eq_ok_iff.mpr
      ⟨⟨read, gap, apart, forall_isSeparator_iff.mp blank⟩,
        String.toList_ofList.symm, rfl⟩
  cases stopped : (Statement.read (SpacedLexeme.tokensFrom .first read)).result with
  | ok statement =>
      simp only [suggest, split, tokens, bind, Except.bind, Statement.parse_eq_read, stopped,
        reading.progress_eq]
  | error diagnostic =>
      have endsEarly := reading.lacksOnlyMore diagnostic stopped
      simp only [suggest, split, tokens, bind, Except.bind, Statement.parse_eq_read, stopped,
        endsEarly, if_true, reading.progress_eq]

/-- Inside the table reference each listed path that continues it is a candidate. -/
theorem mem_candidates_of_table {path : TablePath} {reference : TableRef}
    {partsRead : Option TableRef} {next : String} {behind : List String}
    {openName : List Char} (listed : path ∈ catalog.tablePaths)
    (resolved : catalog.resolve reference = .ok path)
    (names : reference.names = partsRead.elim [] TableRef.names ++ next :: behind)
    (begins : openName <+: next.toList)
    : ∃ paths,
        catalog.candidates (Progress.table partsRead).context openName = .ok paths
        ∧ path.display ∈ paths := by
  have continued : path.continues (partsRead.elim [] TableRef.names) openName := by
    apply TablePath.continues_of_suffix begins
    rw [← names]
    exact (of_resolve_eq_ok resolved).1
  exact ⟨_, candidates_table partsRead,
    List.mem_map_of_mem (List.mem_filter.mpr ⟨listed, continued⟩)⟩

/-- Inside the column list the candidates are the columns of the table that the open name can
become.
-/
theorem candidates_of_columns {path : TablePath} {reference : TableRef}
    (resolved : catalog.resolve reference = .ok path) (columns : List Identifier)
    (openName : List Char)
    : catalog.candidates (Progress.columns reference columns).context openName
      = .ok (((catalog.columns path).filter (beginsWith openName)).map (·.push quote)) := by
  rw [candidates_columns, resolved]
  rfl

end Catalog

/-- The name that a cursor stands in begins with what was typed of it. -/
theorem EndsAt.openName_begins_name {read rest : List SpacedLexeme} {typed part : List Char}
    (ends : EndsAt (read ++ rest) typed read (.inside .identifier part))
    : ∃ spaced more,
        rest = spaced :: more
        ∧ spaced.kind = .identifier
        ∧ part.tail <+: spaced.lexeme.tail.dropLast := by
  generalize whole : read ++ rest = lexemes at ends
  generalize standing : CursorPlace.inside .identifier part = place at ends
  cases ends with
  | between => cases standing
  | @inside _ spaced more part missing split partOf begun unfinished =>
      obtain ⟨isName, rfl⟩ := CursorPlace.inside.inj standing
      rw [split] at whole
      refine ⟨spaced, more, List.append_cancel_left whole, isName.symm, ?_⟩
      obtain ⟨name, _, quoted⟩ := LexemeForm.exists_name (isName ▸ spaced.form)
      rw [quoted] at partOf ⊢
      obtain ⟨openName, rfl, inName⟩ := exists_openName partOf begun unfinished
      simpa using inName

/-- Where a name of the table is awaited or typed, the reading has stopped in front of it. -/
theorem exists_awaited_name {statement : Statement} {read rest : List SpacedLexeme}
    {position : Position} {progress : Progress}
    (cut
      : statement.CutAt (SpacedLexeme.tokensFrom .first read)
          (SpacedLexeme.tokensFrom position rest) progress)
    {typed : List Char} {place : CursorPlace} (ends : EndsAt (read ++ rest) typed read place)
    (inTable : place.InTable (read.map SpacedLexeme.kind))
    : ∃ partsRead next behind,
        progress = .table partsRead
        ∧ statement.fromClause.table.names
          = partsRead.elim [] TableRef.names ++ next :: behind
        ∧ place.openName <+: next.toList := by
  rw [← SpacedLexeme.map_kind_tokensFrom .first] at inTable
  rcases inTable with ⟨rfl, fromOrDot⟩ | ⟨⟨part, rfl⟩, unselected⟩
  · obtain ⟨partsRead, next, behind, reading, _, names⟩ :=
      cut.exists_next_part (fromOrDot.imp_right Or.inl)
    exact ⟨partsRead, next.name, behind, reading, names, List.nil_prefix⟩
  · obtain ⟨spaced, more, rfl, isName, begins⟩ := ends.openName_begins_name
    have nameAhead
        : ((SpacedLexeme.tokensFrom position (spaced :: more)).map Token.kind).head?
          = some .identifier :=
      congrArg some isName
    obtain ⟨partsRead, next, behind, reading, ahead, names⟩ :=
      cut.exists_next_part (Or.inr (Or.inr ⟨unselected, nameAhead⟩))
    refine ⟨partsRead, next.name, behind, reading, names, ?_⟩
    have same : spaced.token position = next.token := Option.some.inj ahead
    rw [TokenOf.name, ← same, Token.unquote, String.toList_ofList]
    simpa [SpacedLexeme.token, CursorPlace.openName] using begins

namespace Catalog

/-- Outside keywords a cursor cuts the statement, and the candidates are those of the cut. -/
theorem exists_cut_of_endsAt {layout : Layout} {statement : Statement}
    (accepted : Statement.ofTokens? layout.tokens = .ok statement) {typed : String}
    {read : List SpacedLexeme} {place : CursorPlace}
    (ends : EndsAt layout.lexemes typed.toList read place)
    (outsideKeywords : ¬ place.InKeyword)
    : ∃ rest position progress,
        layout.lexemes = read ++ rest
        ∧ statement.CutAt (SpacedLexeme.tokensFrom .first read)
            (SpacedLexeme.tokensFrom position rest) progress
        ∧ catalog.suggest typed = catalog.candidates progress.context place.openName := by
  obtain ⟨gap, blank, split⟩ := ends.exists_ofChars outsideKeywords
  obtain ⟨rest, lexemes⟩ := ends.exists_rest
  obtain ⟨spelled, inLimit⟩ := ofTokens?_eq_ok_iff.mp accepted
  rw [Layout.tokens, lexemes, SpacedLexeme.tokensFrom_append] at spelled
  obtain ⟨progress, cut⟩ := Statement.exists_cutAt spelled
  have apart : read.IsChain SpacedLexeme.Apart := by
    have wholeApart := layout.apart
    rw [lexemes] at wholeApart
    exact wholeApart.left_of_append
  exact ⟨rest, _, progress, lexemes, cut,
    suggest_eq_candidates apart blank split (cut.read inLimit)⟩

variable {statement : Statement} {read rest : List SpacedLexeme} {position : Position}
  {progress : Progress} {path : TablePath}

/-- There are candidates at every cut of a statement whose table is found. -/
theorem exists_candidates (resolved : catalog.resolve statement.fromClause.table = .ok path)
    {front behind : List Token} (cut : statement.CutAt front behind progress)
    (openName : List Char)
    : ∃ candidates, catalog.candidates progress.context openName = .ok candidates := by
  cases cut with
  | start | behindFrom | behindPart | behindDot => exact ⟨_, rfl⟩
  | inColumns => exact ⟨_, candidates_of_columns resolved _ openName⟩

theorem candidates_of_outsideLists
    (cut
      : statement.CutAt (SpacedLexeme.tokensFrom .first read)
          (SpacedLexeme.tokensFrom position rest) progress)
    {place : CursorPlace} (outside : place.OutsideLists (read.map SpacedLexeme.kind))
    (openName : List Char)
    : catalog.candidates progress.context openName = .ok [] := by
  rw [← SpacedLexeme.map_kind_tokensFrom .first] at outside
  rcases cut.outside_lists (outside.imp_right And.right) with rfl | ⟨table, rfl⟩ <;> rfl

theorem candidates_of_selected
    (resolved : catalog.resolve statement.fromClause.table = .ok path)
    (cut
      : statement.CutAt (SpacedLexeme.tokensFrom .first read)
          (SpacedLexeme.tokensFrom position rest) progress)
    (selected : .selectKeyword ∈ read.map SpacedLexeme.kind) (openName : List Char)
    : catalog.candidates progress.context openName
      = .ok (((catalog.columns path).filter (beginsWith openName)).map (·.push quote)) := by
  rw [← SpacedLexeme.map_kind_tokensFrom .first] at selected
  obtain ⟨columns, rfl⟩ := cut.exists_columns selected
  exact candidates_of_columns resolved columns openName

end Catalog

/-- Statements that are answered can be completed wherever the cursor stands in them.
Every typed part of the text ends at a place of its layout.  Outside keywords the completion
succeeds there.  It lists nothing before the table clause and behind a name of it, the path of
the table among others where a name of the reference is awaited or typed, and exactly the
columns of the table that the open name can become behind the keyword of the columns.
-/
theorem suggest_at_cursor {documents : DocumentCatalog} {text : String} {answer : ResultSet}
    (answered : documents.toCatalog.execute text = .ok answer)
    : ∃ layout : Layout, ∃ statement path,
        layout.text = text.toList
        ∧ Statement.ofTokens? layout.tokens = .ok statement
        ∧ documents.toCatalog.resolve statement.fromClause.table = .ok path
        ∧ ∀ typed : String,
            typed.toList <+: text.toList
            → (∃ read place, EndsAt layout.lexemes typed.toList read place)
              ∧ ∀ read place,
                  EndsAt layout.lexemes typed.toList read place
                  → ¬ place.InKeyword
                  → let kinds := read.map SpacedLexeme.kind
                    ∃ candidates,
                      documents.toCatalog.suggest typed = .ok candidates
                      ∧ (place.OutsideLists kinds → candidates = [])
                      ∧ (place.InTable kinds → path.display ∈ candidates)
                      ∧ (.selectKeyword ∈ kinds
                        → candidates
                          = ((documents.toCatalog.columns path).filter
                              (fun name => place.openName <+: name.toList)).map
                                (·.push quote)) := by
  obtain ⟨tokens, statement, path, read, accepted, resolved⟩ :=
    Catalog.exists_statement_of_execute answered
  obtain ⟨layout, whole, rfl⟩ := tokensOf_eq_ok_iff.mp read
  refine ⟨layout, statement, path, whole, accepted, resolved, ?_⟩
  intro typed before
  rw [← whole] at before
  refine ⟨exists_endsAt_of_typed layout.blank before, ?_⟩
  intro read place ends outsideKeywords kinds
  obtain ⟨rest, position, progress, lexemes, cut, suggested⟩ :=
    Catalog.exists_cut_of_endsAt accepted ends outsideKeywords
  rw [lexemes] at ends
  obtain ⟨candidates, found⟩ := Catalog.exists_candidates resolved cut place.openName
  refine ⟨candidates, suggested.trans found, ?_, ?_, ?_⟩
  · intro outside
    rw [Catalog.candidates_of_outsideLists cut outside] at found
    exact (Except.ok.inj found).symm
  · intro inTable
    obtain ⟨partsRead, next, behind, rfl, names, begins⟩ :=
      exists_awaited_name cut ends inTable
    have listed := (DocumentCatalog.of_resolve_eq_ok resolved).1
    obtain ⟨paths, listing, member⟩ :=
      Catalog.mem_candidates_of_table listed resolved names begins
    obtain rfl := Except.ok.inj (listing.symm.trans found)
    exact member
  · intro selected
    rw [Catalog.candidates_of_selected resolved cut selected, beginsWith_eq] at found
    exact (Except.ok.inj found).symm

/-- A cursor inside a name of a written statement is behind the opening quote and a beginning
of the name.
-/
theorem endsAt_inside_ofName {lexemes read rest : List SpacedLexeme} {name : PlainName}
    (split : lexemes = read ++ SpacedLexeme.ofName true name :: rest) {front behind : List Char}
    (parts : name.val.toList = front ++ behind) {typed : List Char}
    (whole : typed = SpacedLexeme.spell read ++ ' ' :: quote :: front)
    : EndsAt lexemes typed read (.inside .identifier (quote :: front)) := by
  have partOf
      : (SpacedLexeme.ofName true name).lexeme = (quote :: front) ++ (behind ++ [quote]) := by
    simp [SpacedLexeme.ofName, parts]
  rw [whole]
  exact .inside split partOf (by simp) (by simp)

/-- A cursor behind the dot inside a quoted name suggests the path of the table, and one inside
the quoted name of a column suggests the column.
-/
theorem suggest_orderLines
    : (∃ candidates,
        orderLines.toCatalog.suggest "FROM \"order." = .ok candidates
        ∧ "shop.public.order.lines" ∈ candidates)
      ∧ orderLines.toCatalog.suggest "FROM \"order.lines\" SELECT \"SEL"
        = .ok ["SELECT \n\""] := by
  let table : PlainName := ⟨"order.lines", by decide⟩
  let column : PlainName := ⟨"SELECT \n", by decide⟩
  obtain ⟨statement, accepted, named, columnsNamed⟩ :=
    @exists_statement_of_names table [] (Nat.zero_le 2) column []
  have whole := text_ofNames table [] column []
  have resolved := resolve_orderLines named
  have covered : ∀ record ∈ [OrderedMap.empty.insert "SELECT \n" (.bool true)],
      Record.Covers record statement.selectClause.names := by
    rw [columnsNamed]
    decide
  obtain ⟨rows, answered, _⟩ :=
    Catalog.execute_of_covers (tokensOf_eq_ok_iff.mpr ⟨_, whole, rfl⟩) accepted resolved rfl
      covered
  obtain ⟨layout, found, path, foundWhole, foundAccepted, foundResolved, cursors⟩ :=
    suggest_at_cursor answered
  -- The text has one layout only, so the cursors can be placed in the one it was written by.
  obtain rfl := Layout.text_injective (foundWhole.trans whole.symm)
  obtain rfl := Except.ok.inj (accepted.symm.trans foundAccepted)
  obtain rfl := Except.ok.inj (resolved.symm.trans foundResolved)
  let lexemes := (Layout.ofNames table [] [column]).lexemes
  constructor
  · have split
        : lexemes
          = [SpacedLexeme.ofFrom]
            ++ SpacedLexeme.ofName true table :: SpacedLexeme.ofColumns [column] :=
      rfl
    have parts : table.val.toList = "order.".toList ++ "lines".toList := by decide
    have typed
        : "FROM \"order.".toList
          = SpacedLexeme.spell [SpacedLexeme.ofFrom] ++ ' ' :: quote :: "order.".toList := by
      decide
    have inTableName := endsAt_inside_ofName split parts typed
    obtain ⟨_, atCursor⟩ := cursors "FROM \"order." (by decide)
    obtain ⟨candidates, suggested, _, inTable, _⟩ := atCursor _ _ inTableName not_false
    exact ⟨candidates, suggested, inTable (Or.inr ⟨⟨_, rfl⟩, by decide⟩)⟩
  · let read := SpacedLexeme.ofTable table [] ++ [SpacedLexeme.ofSelect]
    have split : lexemes = read ++ [SpacedLexeme.ofName true column] := rfl
    have parts : column.val.toList = "SEL".toList ++ "ECT \n".toList := by decide
    have typed
        : "FROM \"order.lines\" SELECT \"SEL".toList
          = SpacedLexeme.spell read ++ ' ' :: quote :: "SEL".toList := by
      decide
    have inColumnName := endsAt_inside_ofName split parts typed
    obtain ⟨_, atCursor⟩ := cursors "FROM \"order.lines\" SELECT \"SEL" (by decide)
    obtain ⟨_, suggested, _, _, selected⟩ := atCursor _ _ inColumnName not_false
    have columns
        : orderLines.toCatalog.columns ⟨"shop", "public", "order.lines"⟩ = ["SELECT \n"] := by
      decide
    rw [suggested, selected (by decide), columns]
    decide

end TableQuery
