import TableQuery.Execution

/-! Completing a statement that is being typed.
What may follow depends on how far the text before the cursor can be parsed: inside the table
reference these are paths of the catalog, inside the column list columns of the table.
-/

namespace TableQuery

/-- A typed text, split where a name is still open. -/
structure TypedText where
  complete : List Char
  openName : List Char
deriving DecidableEq

namespace TypedText

/-- The text before the last quote and the text behind it. -/
def splitAtLastQuote : List Char → Option (List Char × List Char)
  | [] => none
  | c :: rest =>
      match splitAtLastQuote rest with
      | some (before, behind) => some (c :: before, behind)
      | none => if c = quote then some ([], rest) else none

/-- Takes a name off the end that a quote opens and none closes. -/
def ofChars (text : List Char) : TypedText :=
  if hasOpenQuote text then
    match splitAtLastQuote text with
    | some (complete, openName) => { complete, openName }
    | none => { complete := text, openName := [] }
  else
    { complete := text, openName := [] }

end TypedText

/-- Whether a name begins with what was typed of it. -/
def beginsWith (typed : List Char) (name : String) : Bool :=
  typed.isPrefixOf name.toList

/-- Whether names begin with the typed names and then one that begins with an open name. -/
def continuesFrom (typed : List String) (openName : List Char) (names : List String) : Bool :=
  names.take typed.length == typed
    && (names[typed.length]?).any (beginsWith openName)

/-- Whether a path continues a reference typed so far, beginning with any of its names. -/
def TablePath.continues (path : TablePath) (typed : List String) (openName : List Char)
    : Bool :=
  [path.segments, path.segments.drop 1, path.segments.drop 2].any
    (continuesFrom typed openName)

namespace Catalog

variable (catalog : Catalog)

/-- The candidates at the place where parsing stopped. -/
def candidates (context : ParseContext) (openName : List Char)
    : Except Diagnostic (List String) :=
  match context.stoppedIn with
  | some .columnList => do
      let some table := context.table
        | .error (.logical .columnsWithoutTable)
      let path ← catalog.resolve table
      return ((catalog.columns path).filter (beginsWith openName)).map (·.push quote)
  | some .table =>
      let typed := context.table.elim [] TableRef.names
      .ok ((catalog.tablePaths.filter (·.continues typed openName)).map TablePath.display)
  | _ => .ok []

/-- Completion candidates for a statement typed up to the cursor.
That the statement ends too early is no fault here; any other diagnostic is reported.
-/
def suggest (text : String) : Except Diagnostic (List String) := do
  let typed := TypedText.ofChars text.toList
  let tokens ← tokensOf (String.ofList typed.complete)
  let outcome := Statement.parse tokens
  match outcome.result with
  | .error diagnostic =>
      if diagnostic.isUnexpectedEnd then catalog.candidates outcome.context typed.openName
      else .error diagnostic
  | .ok _ => catalog.candidates outcome.context typed.openName

end Catalog

end TableQuery
