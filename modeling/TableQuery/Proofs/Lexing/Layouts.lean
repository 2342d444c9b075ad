import Mathlib.Data.List.Chain
import TableQuery.Proofs.Lexing.LexerSteps

/-! Texts as sequences of lexemes with separators around them.
A layout is such a sequence, with nothing glued together that separators have to hold apart.
It spells a text and, counting from a position, stands for tokens.
-/

namespace TableQuery

/-- A lexeme and the separators in front of it. -/
@[ext]
structure SpacedLexeme where
  gap : List Char
  kind : TokenKind
  lexeme : List Char
  separators : ∀ c ∈ gap, c = '\n' ∨ c = ' ' ∨ c = '\t'
  form : LexemeForm kind lexeme

namespace SpacedLexeme

/-- The lexer takes the characters of a gap for separators. -/
theorem blank (spaced : SpacedLexeme) : ∀ c ∈ spaced.gap, isSeparator c :=
  forall_isSeparator_iff.mpr spaced.separators

def text (spaced : SpacedLexeme) : List Char :=
  spaced.gap ++ spaced.lexeme

/-- The token that the lexeme is where its gap begins at the given position. -/
def token (position : Position) (spaced : SpacedLexeme) : Token where
  kind := spaced.kind
  lexeme := String.ofList spaced.lexeme
  span := {
    start := position.advance spaced.gap
    stop := position.advance spaced.text
  }
  recognized := recognizes_iff.mpr (String.toList_ofList ▸ spaced.form)

/-- Whether a lexeme may stand behind another: without separators only next to a dot. -/
def Apart (left right : SpacedLexeme) : Prop :=
  right.gap ≠ [] ∨ left.kind = .dot ∨ right.kind = .dot

/-- The text of lexemes one after the other. -/
def spell (lexemes : List SpacedLexeme) : List Char :=
  lexemes.flatMap text

/-- The tokens of lexemes one after the other. -/
def tokensFrom (position : Position) : List SpacedLexeme → List Token
  | [] => []
  | spaced :: more =>
      spaced.token position :: tokensFrom (position.advance spaced.text) more

@[simp]
theorem spell_nil : spell [] = [] := rfl

@[simp]
theorem spell_cons (spaced : SpacedLexeme) (more : List SpacedLexeme)
    : spell (spaced :: more) = spaced.text ++ spell more := rfl

@[simp]
theorem spell_append (left right : List SpacedLexeme)
    : spell (left ++ right) = spell left ++ spell right :=
  List.flatMap_append

/-- The tokens of two stretches of lexemes are those of the first and then those of the
second, counted from where the first ends.
-/
theorem tokensFrom_append (position : Position) (left right : List SpacedLexeme)
    : tokensFrom position (left ++ right)
      = tokensFrom position left ++ tokensFrom (position.advance (spell left)) right := by
  induction left generalizing position with
  | nil => rfl
  | cons spaced left ih => simp [tokensFrom, ih]

/-- Tokens have the kinds and the lexemes that were laid out, by induction. -/
theorem map_tokensFrom {α : Type} (part : TokenKind → List Char → α) (position : Position)
    (lexemes : List SpacedLexeme)
    : (tokensFrom position lexemes).map (fun token => part token.kind token.lexeme.toList)
      = lexemes.map (fun spaced => part spaced.kind spaced.lexeme) := by
  induction lexemes generalizing position with
  | nil => rfl
  | cons spaced more ih => simp [tokensFrom, token, ih]

theorem map_kind_tokensFrom (position : Position) (lexemes : List SpacedLexeme)
    : (tokensFrom position lexemes).map Token.kind = lexemes.map kind :=
  map_tokensFrom (fun kind _ => kind) position lexemes

end SpacedLexeme

/-- A whole text as lexemes, each with the separators in front of it, and the separators
behind the last one.
-/
@[ext]
structure Layout where
  lexemes : List SpacedLexeme
  trailing : List Char
  apart : lexemes.IsChain SpacedLexeme.Apart
  separators : ∀ c ∈ trailing, c = '\n' ∨ c = ' ' ∨ c = '\t'

namespace Layout

/-- The lexer takes the characters behind the last lexeme for separators. -/
theorem blank (layout : Layout) : ∀ c ∈ layout.trailing, isSeparator c :=
  forall_isSeparator_iff.mpr layout.separators

def text (layout : Layout) : List Char :=
  SpacedLexeme.spell layout.lexemes ++ layout.trailing

/-- The tokens of a layout that begins where texts begin. -/
def tokens (layout : Layout) : List Token :=
  SpacedLexeme.tokensFrom .first layout.lexemes

end Layout

/-- Separators end a word. -/
theorem endsWord_of_blank {text : List Char} (blank : ∀ c ∈ text, isSeparator c)
    : EndsWord text :=
  fun c first => Or.inl (blank c (List.mem_of_mem_head? first))

/-- A separator in front of any text ends a word, by its first character. -/
theorem endsWord_append {gap : List Char} (blank : ∀ c ∈ gap, isSeparator c)
    (notEmpty : gap ≠ []) (rest : List Char)
    : EndsWord (gap ++ rest) := by
  cases gap with
  | nil => exact absurd rfl notEmpty
  | cons c more =>
      intro first same
      obtain rfl := Option.some.inj same
      exact Or.inl (blank c List.mem_cons_self)

/-- A lexeme ends a word in front of it exactly if separators or its own dot come first. -/
theorem SpacedLexeme.endsWord_iff (spaced : SpacedLexeme) (rest : List Char)
    : EndsWord (spaced.text ++ rest) ↔ spaced.gap ≠ [] ∨ spaced.kind = .dot := by
  obtain ⟨first, initial, more, begins⟩ := spaced.form.exists_initial
  rw [text, List.append_assoc, begins]
  constructor
  · intro ends
    by_cases gapEmpty : spaced.gap = []
    · right
      rw [gapEmpty] at ends
      rcases ends first rfl with separator | isDot
      · simp [TokenKind.not_separator_of_initial initial] at separator
      · exact TokenKind.eq_of_initial initial (by simp [TokenKind.initials, isDot])
    · exact Or.inl gapEmpty
  · intro apart
    by_cases gapEmpty : spaced.gap = []
    · rw [gapEmpty]
      intro c same
      obtain rfl := Option.some.inj same
      rw [apart.resolve_left (not_not_intro gapEmpty)] at initial
      exact Or.inr (List.mem_singleton.mp initial)
    · exact endsWord_append spaced.blank gapEmpty _

/-- What follows a lexeme keeps it apart exactly if the next lexeme may stand behind it. -/
theorem SpacedLexeme.isChain_cons_iff (spaced : SpacedLexeme) (more : List SpacedLexeme)
    {trailing : List Char} (blank : ∀ c ∈ trailing, isSeparator c)
    : (spaced :: more).IsChain Apart
      ↔ (spaced.kind = .dot ∨ EndsWord (spell more ++ trailing)) ∧ more.IsChain Apart := by
  cases more with
  | nil => simp [endsWord_of_blank blank]
  | cons next rest =>
      rw [List.isChain_cons_cons, spell_cons, List.append_assoc, endsWord_iff, Apart]
      tauto

end TableQuery
