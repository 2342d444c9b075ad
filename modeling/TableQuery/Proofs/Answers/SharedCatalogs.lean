import TableQuery.Proofs.Catalogs.Qualification
import TableQuery.Proofs.Completion.CursorSuggestions
import TableQuery.Proofs.Reading.SpelledReferences

/-! Catalogs behind a reference.
A reference to a store answers look-ups as the store does, and so it answers statements.  It
does not know of listings that a store supplies itself: they are made from look-ups again, and
completion shows the difference.
-/

namespace TableQuery

namespace Catalog

variable {catalog : Catalog} {reference : TableRef} {path : TablePath}

/-- Statements are answered through look-ups only, so a shared store answers and traces them
alike.
-/
theorem answers_shared (text : String)
    : catalog.shared.execute text = catalog.execute text
      ∧ catalog.shared.trace text = catalog.trace text :=
  ⟨rfl, rfl⟩

-----------------------------------------------------------------------------------------
-- Listings that are made from look-ups
-----------------------------------------------------------------------------------------

/-- Where the listings of a store are those made from its look-ups, as far as references
reach, completion lists the same.
-/
theorem candidates_shared (paths : catalog.shared.tablePaths = catalog.tablePaths)
    (columns
      : ∀ reference path,
          catalog.resolve reference = .ok path
          → catalog.shared.columns path = catalog.columns path)
    (context : ParseContext) (openName : List Char)
    : catalog.shared.candidates context openName = catalog.candidates context openName := by
  simp only [candidates, paths]
  split
  · cases context.table with
    | none => rfl
    | some table =>
        have sameTable : catalog.shared.resolve table = catalog.resolve table := rfl
        simp only [sameTable]
        cases resolved : catalog.resolve table with
        | error diagnostic => rfl
        | ok path => simp only [bind, Except.bind, columns table path resolved]
  · rfl
  · rfl

-----------------------------------------------------------------------------------------
-- A text for every table
-----------------------------------------------------------------------------------------

/-- What a reference is resolved to depends on its names only. -/
theorem resolve_of_names {other : TableRef} (named : other.names = reference.names)
    (resolved : catalog.resolve reference = .ok path)
    : catalog.resolve other = .ok path := by
  rw [TableRef.names, TableRef.names] at named
  rw [resolve] at resolved
  split at resolved
  · rename_i table parts
    rw [parts] at named
    obtain ⟨otherTable, otherParts, tableNamed⟩ := List.map_eq_singleton_iff.mp named
    rw [resolveTable_eq_ok_iff, ← tableNamed] at resolved
    rw [resolve, otherParts]
    exact resolveTable_eq_ok_iff.mpr resolved
  · rename_i schema table parts
    rw [parts] at named
    obtain ⟨otherSchema, rest, otherParts, schemaNamed, behind⟩ :=
      List.map_eq_cons_iff.mp named
    obtain ⟨otherTable, rfl, tableNamed⟩ := List.map_eq_singleton_iff.mp behind
    rw [resolveInSchema_eq_ok_iff, ← schemaNamed, ← tableNamed] at resolved
    rw [resolve, otherParts]
    exact resolveInSchema_eq_ok_iff.mpr resolved
  · rename_i database schema table parts
    rw [parts] at named
    obtain ⟨otherDatabase, rest, otherParts, databaseNamed, inDatabase⟩ :=
      List.map_eq_cons_iff.mp named
    obtain ⟨otherSchema, rest, rfl, schemaNamed, inSchema⟩ :=
      List.map_eq_cons_iff.mp inDatabase
    obtain ⟨otherTable, rfl, tableNamed⟩ := List.map_eq_singleton_iff.mp inSchema
    rw [resolveInDatabase_eq_ok_iff, ← databaseNamed, ← schemaNamed, ← tableNamed] at resolved
    rw [resolve, otherParts]
    exact resolveInDatabase_eq_ok_iff.mpr resolved
  · cases resolved

/-- For every table that is found there is a text behind which its columns are listed. -/
theorem exists_suggest_columns (resolved : catalog.resolve reference = .ok path)
    : ∃ text,
        ∀ other : Catalog,
          other.resolve reference = .ok path
          → other.suggest text = .ok ((other.columns path).map (·.push quote)) := by
  have inLimit : reference.more.length ≤ 2 := by
    have ending := (of_resolve_eq_ok resolved).1.length_le
    simp only [TableRef.names, List.length_map, TableRef.length_parts, TablePath.segments,
      List.length_cons, List.length_nil] at ending
    omega
  let plain (identifier : Identifier) : PlainName :=
    ⟨identifier.name, quote_not_mem_name identifier⟩
  let first := plain reference.first
  let more := reference.more.map (fun dotted => plain dotted.part)
  let lexemes := SpacedLexeme.ofTable first more ++ SpacedLexeme.ofColumns []
  have bounded : more.length ≤ 2 := by
    simpa [more] using inLimit
  obtain ⟨clause, inClause, clauseInLimit, spelled⟩ := exists_fromClause_of_names first bounded
  have named : clause.table.names = reference.names := by
    rw [spelled]
    simp [first, more, plain, TableRef.names, TableRef.parts, Function.comp_def]
  let keyword : TokenOf .selectKeyword := {
    token := SpacedLexeme.ofSelect.token
      (Position.first.advance (SpacedLexeme.spell (SpacedLexeme.ofTable first more)))
    kind_eq := rfl
  }
  have tokens
      : SpacedLexeme.tokensFrom .first lexemes = clause.tokens ++ [keyword.token] := by
    rw [SpacedLexeme.tokensFrom_append, inClause]
    rfl
  have reading := Statement.read_columns clause keyword [] clauseInLimit
  rw [List.map_nil, ← tokens] at reading
  refine ⟨String.ofList (SpacedLexeme.spell lexemes ++ []), ?_⟩
  intro other found
  have split
      : TypedText.ofChars (String.ofList (SpacedLexeme.spell lexemes ++ [])).toList
        = { complete := SpacedLexeme.spell lexemes ++ [], openName := [] } := by
    rw [String.toList_ofList]
    exact TypedText.ofChars_closed (hasOpenQuote_spell lexemes (by simp))
  have apart := SpacedLexeme.isChain_ofTable first more []
  rw [suggest_eq_candidates apart (by simp) split reading,
    candidates_of_columns (resolve_of_names named found)]
  have allBegin : ∀ name ∈ other.columns path, beginsWith [] name := fun _ _ => rfl
  rw [List.filter_eq_self.mpr allBegin]

/-- What a shared store loses.
Where a store lists its paths as they are found by its look-ups, sharing it keeps all
suggestions exactly if the columns of every table that a reference finds are those seen in its
rows.
-/
theorem suggest_shared_iff (paths : catalog.shared.tablePaths = catalog.tablePaths)
    : (∀ text, catalog.shared.suggest text = catalog.suggest text)
      ↔ ∀ reference path,
          catalog.resolve reference = .ok path
          → catalog.shared.columns path = catalog.columns path := by
  constructor
  · intro same reference path resolved
    obtain ⟨text, listed⟩ := exists_suggest_columns resolved
    have columns := same text
    rw [listed catalog resolved, listed catalog.shared resolved] at columns
    have pushed : Function.Injective (fun name : String => name.push quote) := by
      intro left right same
      simpa [← String.toList_inj] using same
    exact List.map_injective_iff.mpr pushed (Except.ok.inj columns)
  · intro columns text
    simp only [suggest, candidates_shared paths columns]

end Catalog

/-- The catalog of one empty table, with a store that knows its columns. -/
def knownColumns : Catalog :=
  { oneRegion.toCatalog with columns := fun _ => ["id"] }

/-- A store that knows the columns of an empty table is no longer asked for them once it is
shared.
-/
theorem suggest_knownColumns
    : let text := "FROM \"orders\" SELECT "
      knownColumns.suggest text = .ok ["id\""]
      ∧ knownColumns.shared.suggest text = .ok []
      ∧ knownColumns.columns ⟨"north", "public", "orders"⟩ = ["id"]
      ∧ knownColumns.shared.columns ⟨"north", "public", "orders"⟩ = [] := by
  decide +kernel

end TableQuery
