import TableQuery.Statement.Parser

/-! Reading tokens into a statement as recursion over the tokens.
The parser acts step by step on a state.  Its runs are described here as functions of the tokens
ahead: what they make of them, and how far they get, told by the rule entered last with what had
been read before it.
-/

namespace TableQuery

/-- How far a statement was read: the rule that was being read last, with what was read
before it.
-/
inductive Progress where
  | fromKeyword
  | table (partsRead : Option TableRef)
  | selectKeyword (table : TableRef)
  | columns (table : TableRef) (columnsRead : List Identifier)
deriving DecidableEq

namespace Progress

/-- The last rule that was entered. -/
def current : Progress → NodeKind
  | fromKeyword => .fromClause
  | table _ => .table
  | selectKeyword _ => .selectClause
  | columns _ _ => .column

/-- The rule entered before the current one.
From the second column on that is another column.
-/
def previous : Progress → NodeKind
  | fromKeyword => .statement
  | table _ => .fromClause
  | selectKeyword _ => .table
  | columns _ (_ :: _ :: _) => .column
  | columns _ _ => .columnList

/-- The table reference as far as it was read. -/
def table? : Progress → Option TableRef
  | fromKeyword => none
  | table partsRead => partsRead
  | selectKeyword reference | columns reference _ => some reference

/-- The list that the reading stopped in, if it stopped in one. -/
def stoppedIn : Progress → Option NodeKind
  | table _ => some .table
  | columns _ _ => some .columnList
  | fromKeyword | selectKeyword _ => none

/-- What a parser remembers that got this far. -/
def context (progress : Progress) : ParseContext where
  current := some progress.current
  previous := some progress.previous
  table := progress.table?

/-- The last two rules entered tell the list, whatever the number of columns read. -/
@[simp]
theorem stoppedIn_context (progress : Progress)
    : progress.context.stoppedIn = progress.stoppedIn := by
  cases progress with
  | fromKeyword | table | selectKeyword => rfl
  | columns _ columnsRead =>
      match columnsRead with
      | [] | [_] | _ :: _ :: _ => rfl

@[simp]
theorem table_context (progress : Progress) : progress.context.table = progress.table? :=
  rfl

end Progress

/-- A statement or the diagnostic that rejects it, and how far the reading got. -/
structure Outcome where
  result : Except Diagnostic Statement
  progress : Progress

/-- Takes the token ahead, which has to be of the given kind. -/
def expect (kind : TokenKind) : List Token → Except Diagnostic (TokenOf kind × List Token)
  | [] => .error (.unexpectedEnd kind)
  | token :: rest =>
      if kind_eq : token.kind = kind then
        .ok ({ token, kind_eq }, rest)
      else
        .error (.unexpectedToken (.token kind) token)

namespace TableRef

/-- Reads up to the given number of further names.
A dot that no name follows is a fault, which comes with the reference read before it.
-/
def readMore (table : TableRef)
    : Nat → List Token → Except (Diagnostic × TableRef) (TableRef × List Token)
  | 0, tokens => .ok (table, tokens)
  | limit + 1, tokens =>
      match expect .dot tokens with
      | .error _ => .ok (table, tokens)
      | .ok (dot, afterDot) =>
          match expect .identifier afterDot with
          | .error diagnostic => .error (diagnostic, table)
          | .ok (part, afterPart) => (table.push dot part).readMore limit afterPart

/-- Reads a table reference; a fault comes with the names read before it. -/
def read (tokens : List Token)
    : Except (Diagnostic × Option TableRef) (TableRef × List Token) :=
  match expect .identifier tokens with
  | .error diagnostic => .error (diagnostic, none)
  | .ok (first, rest) =>
      ((single first).readMore (maxParts - 1) rest).mapError
        (fun (diagnostic, partsRead) => (diagnostic, some partsRead))

end TableRef

/-- The identifiers that a token list begins with, and the tokens behind them. -/
def splitIdentifiers : List Token → List Identifier × List Token
  | [] => ([], [])
  | token :: rest =>
      if kind_eq : token.kind = .identifier then
        let (identifiers, after) := splitIdentifiers rest
        ({ token, kind_eq } :: identifiers, after)
      else
        ([], token :: rest)

namespace Statement

/-- A complete statement is accepted only where no token is left behind it. -/
def endingHere (statement : Statement) : List Token → Except Diagnostic Statement
  | [] => .ok statement
  | extra :: _ => .error (.unexpectedToken .endOfInput extra)

/-- Reads a token list as one statement. -/
def read (tokens : List Token) : Outcome :=
  match expect .fromKeyword tokens with
  | .error diagnostic => ⟨.error diagnostic, .fromKeyword⟩
  | .ok (fromKeyword, afterFrom) =>
      match TableRef.read afterFrom with
      | .error (diagnostic, partsRead) => ⟨.error diagnostic, .table partsRead⟩
      | .ok (table, afterTable) =>
          match expect .selectKeyword afterTable with
          | .error diagnostic => ⟨.error diagnostic, .selectKeyword table⟩
          | .ok (selectKeyword, afterSelect) =>
              match expect .identifier afterSelect with
              | .error diagnostic => ⟨.error diagnostic, .columns table []⟩
              | .ok (first, afterFirst) =>
                  let (more, after) := splitIdentifiers afterFirst
                  let statement : Statement := {
                    fromClause := { keyword := fromKeyword, table }
                    selectClause := { keyword := selectKeyword, first, more }
                  }
                  ⟨statement.endingHere after, .columns table (first :: more)⟩

end Statement

end TableQuery
