import TableQuery.Diagnostic

/-! Reading statement text into tokens.
A text is a sequence of lexemes with separators between them.  Each step of the lexer takes
the separators and the one lexeme ahead and stands behind that lexeme afterwards, whether
or not a token kind recognizes it.
-/

namespace TableQuery

/-- The characters that may stand between lexemes. -/
def isSeparator (c : Char) : Bool :=
  c == '\n' || c == ' ' || c == '\t'

theorem isSeparator_iff {c : Char} : isSeparator c ↔ c = '\n' ∨ c = ' ' ∨ c = '\t' := by
  simp [isSeparator, or_assoc]

theorem forall_isSeparator_iff {gap : List Char}
    : (∀ c ∈ gap, isSeparator c) ↔ ∀ c ∈ gap, c = '\n' ∨ c = ' ' ∨ c = '\t' := by
  simp only [isSeparator_iff]

/-- Whether the last quote of a text opens a name that no further quote closes. -/
def hasOpenQuote (text : List Char) : Bool :=
  text.count quote % 2 == 1

/-- Splits a text where a word ends: at the first separator or dot that is not enclosed in
quotes.  The flag says whether a quote is open where the text begins.
-/
def splitWord (quoted : Bool) : List Char → List Char × List Char
  | [] => ([], [])
  | c :: rest =>
      if !quoted && (isSeparator c || c == '.') then
        ([], c :: rest)
      else
        let (word, after) := splitWord (quoted ^^ c == quote) rest
        (c :: word, after)

/-- A word and what follows it make up the text again, by induction over the text. -/
theorem splitWord_append (quoted : Bool) (text : List Char)
    : (splitWord quoted text).1 ++ (splitWord quoted text).2 = text := by
  induction text generalizing quoted with
  | nil => rfl
  | cons c rest ih =>
      rw [splitWord]
      split
      · rfl
      · simp [ih]

/-- Splits off the lexeme that begins with the given first character: a dot is a lexeme by
itself, and all else is a word.
-/
def splitLexeme (first : Char) (rest : List Char) : List Char × List Char :=
  if first = '.' then ([first], rest) else splitWord false (first :: rest)

/-- A lexeme and what follows it make up the text again, by the same fact about words. -/
theorem splitLexeme_append (first : Char) (rest : List Char)
    : (splitLexeme first rest).1 ++ (splitLexeme first rest).2 = first :: rest := by
  rw [splitLexeme]
  split
  · rfl
  · exact splitWord_append false (first :: rest)

/-- A lexeme that begins with no separator leaves less than the whole text, because the
first character always belongs to it.
-/
theorem length_splitLexeme_snd_le (first : Char) (rest : List Char)
    (notSeparator : isSeparator first = false)
    : (splitLexeme first rest).2.length ≤ rest.length := by
  rw [splitLexeme]
  split
  · exact Nat.le_refl _
  · rename_i notDot
    have whole := congrArg List.length (splitWord_append (false ^^ first == quote) rest)
    simp [splitWord, notSeparator, notDot] at whole ⊢
    omega

/-- The outcome of reading one lexeme: a token, or the diagnostic that rejects it. -/
abbrev LexedItem := Except Diagnostic Token

/-- What a lexeme is read as. -/
def readLexeme (lexeme : List Char) (span : Span) : LexedItem :=
  if hasOpenQuote lexeme then
    .error (.unterminatedQuote (String.ofList lexeme) span)
  else
    match Token.classify? (String.ofList lexeme) span with
    | some token => .ok token
    | none => .error (.unmatchedLexeme (String.ofList lexeme) span)

/-- The part of a text that has not been read yet, and where it begins. -/
structure Lexer where
  rest : List Char
  position : Position
deriving DecidableEq

namespace Lexer

def ofText (text : String) : Lexer where
  rest := text.toList
  position := .first

/-- Reads the next lexeme, or finds that only separators are left. -/
def next? (lexer : Lexer) : Option (LexedItem × Lexer) :=
  let start := lexer.position.advance (lexer.rest.takeWhile isSeparator)
  match lexer.rest.dropWhile isSeparator with
  | [] => none
  | first :: rest =>
      let (lexeme, after) := splitLexeme first rest
      let stop := start.advance lexeme
      some (readLexeme lexeme { start, stop }, { rest := after, position := stop })

/-- Every step shortens the text ahead, by the first character of its lexeme. -/
theorem length_rest_lt_of_next? {lexer after : Lexer} {item : LexedItem}
    (step : lexer.next? = some (item, after))
    : after.rest.length < lexer.rest.length := by
  rw [next?] at step
  split at step
  · cases step
  · rename_i first rest ahead
    have notSeparator : isSeparator first = false := by
      have := List.head?_dropWhile_not isSeparator lexer.rest
      simpa [ahead] using this
    have shorter := length_splitLexeme_snd_le first rest notSeparator
    have whole := (List.dropWhile_suffix isSeparator (l := lexer.rest)).length_le
    simp only [Option.some.injEq, Prod.mk.injEq] at step
    obtain ⟨_, rfl⟩ := step
    simp only [ahead, List.length_cons] at whole
    simp only
    omega

/-- Everything that single steps yield until the text ends. -/
def items (lexer : Lexer) : List LexedItem :=
  match _ : lexer.next? with
  | none => []
  | some (item, after) => item :: after.items
termination_by lexer.rest.length
decreasing_by exact length_rest_lt_of_next? (by assumption)

/-- Reads all tokens that are left.
The first rejected lexeme ends the reading, and the lexer stands behind it.
-/
def tokenize (lexer : Lexer) : Except Diagnostic (List Token) × Lexer :=
  match _ : lexer.next? with
  | none => (.ok [], lexer)
  | some (.error diagnostic, after) => (.error diagnostic, after)
  | some (.ok token, after) =>
      let (tokens, final) := after.tokenize
      (tokens.map (token :: ·), final)
termination_by lexer.rest.length
decreasing_by exact length_rest_lt_of_next? (by assumption)

end Lexer

/-- The tokens of a whole text, or the first diagnostic. -/
def tokensOf (text : String) : Except Diagnostic (List Token) :=
  (Lexer.ofText text).tokenize.1

end TableQuery
