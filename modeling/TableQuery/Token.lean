import TableQuery.Span

/-! Tokens of statement text.
A token carries the proof that its kind recognizes its lexeme, so every token that exists is
well formed.
-/

namespace TableQuery

/-- The quote character that encloses identifiers. -/
abbrev quote : Char := '"'

/-- What a lexeme can be. -/
inductive TokenKind where
  | selectKeyword
  | fromKeyword
  | identifier
  | dot
deriving DecidableEq

namespace TokenKind

/-- The order in which kinds are tried on a lexeme. -/
def priority : List TokenKind :=
  [.selectKeyword, .fromKeyword, .identifier, .dot]

/-- The name of a kind in diagnostics. -/
def name : TokenKind → String
  | selectKeyword => "SELECT"
  | fromKeyword => "FROM"
  | identifier => "identifier"
  | dot => "'.'"

/-- A keyword may be written in any ASCII case. -/
def spellsKeyword (keyword : List Char) (lexeme : List Char) : Bool :=
  lexeme.map Char.toUpper == keyword

/-- A quoted name opens with a quote, closes with a second one, and holds none inside. -/
def isQuotedName : List Char → Bool
  | '"' :: rest => rest.getLast? == some quote && !rest.dropLast.contains quote
  | _ => false

/-- The forms of a kind's lexemes. -/
def recognizes (kind : TokenKind) (lexeme : String) : Bool :=
  match kind with
  | selectKeyword => spellsKeyword "SELECT".toList lexeme.toList
  | fromKeyword => spellsKeyword "FROM".toList lexeme.toList
  | identifier => isQuotedName lexeme.toList
  | dot => lexeme.toList == ['.']

end TokenKind

/-- A lexeme of a known kind together with its place in the text. -/
@[ext]
structure Token where
  kind : TokenKind
  lexeme : String
  span : Span
  recognized : kind.recognizes lexeme
deriving DecidableEq

namespace Token

/-- A token of the given kind, where that kind recognizes the lexeme. -/
def ofKind? (kind : TokenKind) (lexeme : String) (span : Span) : Option Token :=
  if recognized : kind.recognizes lexeme then
    some { kind, lexeme, span, recognized }
  else
    none

/-- A token of the first kind that recognizes the lexeme. -/
def classify? (lexeme : String) (span : Span) : Option Token :=
  TokenKind.priority.findSome? (fun kind => ofKind? kind lexeme span)

/-- What stands between the quotes of a quoted name. -/
def unquote (lexeme : String) : String :=
  String.ofList lexeme.toList.tail.dropLast

/-- The name that an identifier stands for; other tokens stand for none. -/
def name? (token : Token) : Option String :=
  match token.kind with
  | .identifier => some (unquote token.lexeme)
  | .selectKeyword | .fromKeyword | .dot => none

/-- Exactly the tokens of identifiers stand for names. -/
theorem isSome_name?_iff {token : Token} : token.name?.isSome ↔ token.kind = .identifier := by
  rw [name?]
  cases token.kind <;> simp

/-- How token listings and syntax trees show a token. -/
def display (token : Token) : String :=
  match token.kind with
  | .selectKeyword => "<SELECT>"
  | .fromKeyword => "<FROM>"
  | .dot => "<DOT>"
  | .identifier => s!"<ID, {token.lexeme}>"

end Token

/-- A token whose kind is known from its type. -/
structure TokenOf (kind : TokenKind) where
  token : Token
  kind_eq : token.kind = kind
deriving DecidableEq

/-- A token that stands for a name. -/
abbrev Identifier := TokenOf .identifier

namespace TokenOf

variable {kind : TokenKind}

def span (known : TokenOf kind) : Span :=
  known.token.span

/-- The name inside the quotes. -/
def name (identifier : Identifier) : String :=
  Token.unquote identifier.token.lexeme

/-- An identifier's name is what its token stands for, by its known kind. -/
theorem name?_token (identifier : Identifier)
    : identifier.token.name? = some identifier.name := by
  simp [Token.name?, identifier.kind_eq, name]

end TokenOf

/-- A token as an identifier, if it stands for a name. -/
def Identifier.ofToken? (token : Token) : Option Identifier :=
  if named : token.name?.isSome then
    some { token, kind_eq := Token.isSome_name?_iff.mp named }
  else
    none

/-- The token of an identifier is that identifier. -/
@[simp]
theorem Identifier.ofToken?_token (identifier : Identifier)
    : Identifier.ofToken? identifier.token = some identifier :=
  dif_pos (Token.isSome_name?_iff.mpr identifier.kind_eq)

end TableQuery
