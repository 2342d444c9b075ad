import TableQuery.Proofs.Catalogs.Qualification
import TableQuery.Proofs.Diagnostics.Origins
import TableQuery.Proofs.Lexing.MarkedText
import TableQuery.Proofs.Reading.ReferenceSpans

/-! Diagnostics point at the text that they are about.
The place of a diagnostic is carried from the lexer through tokens and names up to the search
for a table, and is merged for whole references.  What it cuts out of the text in the end is
the lexeme, the quoted name or the reference that the message mentions.
-/

namespace TableQuery

/-- The stretch of a text that a diagnostic about it points at is what its message mentions: a
rejected lexeme, an unexpected token, an unknown name as an identifier spells it, or, where a
name is ambiguous, the table reference from its first name to its last.
-/
inductive Diagnostic.Mentions (text : String) (stretch : List Char) : Diagnostic → Prop
  | lexeme {diagnostic} (rejected : tokensOf text = .error diagnostic)
    (shown : LexedItem.Shows (String.ofList stretch) (.error diagnostic))
    : Mentions text stretch diagnostic
  | token {tokens expected found} (read : tokensOf text = .ok tokens) (member : found ∈ tokens)
    (message
      : (Diagnostic.unexpectedToken expected found).message
        = s!"Unexpected token: {String.ofList stretch} (expected: {expected.display})")
    : Mentions text stretch (.unexpectedToken expected found)
  | name {tokens fault level context} {identifier : Identifier}
    (read : tokensOf text = .ok tokens) (member : identifier.token ∈ tokens)
    (quoted : stretch = quote :: identifier.name.toList ++ [quote])
    (named : fault.unknown? = some (level, identifier.name))
    (message : fault.message = s!"Unknown {level} '{identifier.name}'" ++ context)
    : Mentions text stretch (.semantic fault (some identifier.span))
  | reference {tokens fault level advice} {clause : FromClause} {last : Identifier}
    (read : tokensOf text = .ok tokens) (opens : clause.Opens tokens)
    (isLast : clause.table.parts.getLast? = some last)
    (whole
      : clause.table.span
        = { start := clause.table.first.span.start, stop := last.span.stop })
    (spelled : SpelledBy clause.table.tokens stretch)
    (named : fault.ambiguous? = some (level, clause.table.first.name))
    (message
      : fault.message
        = s!"Multiple {level} with name '{clause.table.first.name}'. " ++ advice)
    : Mentions text stretch (.semantic fault (some clause.table.span))

/-- The complete part of a typed text is its beginning. -/
theorem TypedText.Splits.complete_prefix {text : List Char} {typed : TypedText}
    (splits : Splits text typed)
    : typed.complete <+: text := by
  cases splits with
  | closed => exact List.prefix_refl text
  | opened whole => exact ⟨_, whole.symm⟩

namespace Diagnostic

variable {text : String} {diagnostic : Diagnostic} {span : Span}

/-- A text that is rejected by the lexer is rejected for the lexeme pointed at. -/
theorem exists_mentions_of_tokensOf (rejected : tokensOf text = .error diagnostic)
    (placed : diagnostic.span? = some span)
    : ∃ stretch, span.Marks text.toList stretch ∧ diagnostic.Mentions text stretch := by
  obtain ⟨lexeme, marked, shown, isMarked, marks⟩ :=
    (standsIn_ofText text).exists_marks_of_tokenize rejected
  obtain rfl := Option.some.inj (placed.symm.trans isMarked)
  exact ⟨lexeme, marks, .lexeme rejected shown⟩

variable {tokens : List Token}

/-- What arises from the tokens of a text points at what it mentions, unless it points at the
end of input.
-/
theorem ArisesFrom.exists_mentions (arises : diagnostic.ArisesFrom tokens)
    (read : tokensOf text = .ok tokens) (placed : diagnostic.span? = some span)
    (notEnd : span ≠ Span.endOfInput)
    : ∃ stretch, span.Marks text.toList stretch ∧ diagnostic.Mentions text stretch := by
  obtain ⟨layout, whole, rfl⟩ := tokensOf_eq_ok_iff.mp read
  rw [← whole]
  cases arises with
  | ended expected => exact absurd (Option.some.inj placed).symm notEnd
  | missingRows path => cases placed
  | @unexpected expected found member =>
      obtain rfl := Option.some.inj placed
      refine ⟨_, layout.marks_of_mem member, .token read member ?_⟩
      rw [String.ofList_toList]
      rfl
  | @unknown identifier fault level member named =>
      obtain rfl := Option.some.inj placed
      obtain ⟨context, message⟩ := fault.exists_message_of_unknown? named
      exact ⟨_, layout.marks_of_mem member,
        .name read member (toList_lexeme identifier) named message⟩
  | @ambiguous clause fault level opens named =>
      obtain rfl := Option.some.inj placed
      obtain ⟨advice, message⟩ := fault.exists_message_of_ambiguous? named
      obtain ⟨front, back, split⟩ := opens.exists_table
      obtain ⟨last, isLast, isLastToken⟩ := clause.table.exists_last
      have inOrder := (tokensInOrder_of_tokensOf read).sublist opens.sublist
      have whole := TableRef.span_eq inOrder isLastToken
      obtain ⟨stretch, spelled, marks⟩ := layout.exists_marks split isLastToken
      exact ⟨stretch, whole ▸ marks,
        .reference read opens isLast whole spelled named message⟩

/-- A text points at what it mentions, in whichever stage it is rejected. -/
theorem exists_mentions {α : Type} {next : List Token → Except Diagnostic α}
    (rejected : tokensOf text >>= next = .error diagnostic)
    (arises : ∀ tokens, next tokens = .error diagnostic → diagnostic.ArisesFrom tokens)
    (placed : diagnostic.span? = some span) (notEnd : span ≠ Span.endOfInput)
    : ∃ stretch, span.Marks text.toList stretch ∧ diagnostic.Mentions text stretch := by
  rcases bind_eq_error_iff.mp rejected with unlexed | ⟨tokens, read, rejectedBehind⟩
  · exact exists_mentions_of_tokensOf unlexed placed
  · exact (arises tokens rejectedBehind).exists_mentions read placed notEnd

end Diagnostic

/-- Diagnostics point at the text that they are about.
Whatever place a rejected text is given, except for the end of input, it lies in the text and
cuts out what the message mentions.  Suggestions are no exception: only the part in front of
the open name is read, but its places are those of the whole text.
-/
theorem diagnostics_point_at_text {catalog : Catalog} {text : String} {diagnostic : Diagnostic}
    {span : Span} (placed : diagnostic.span? = some span) (notEnd : span ≠ Span.endOfInput)
    : (catalog.execute text = .error diagnostic
        → ∃ stretch, span.Covers text.toList stretch ∧ diagnostic.Mentions text stretch)
      ∧ (catalog.suggest text = .error diagnostic
        → ∃ stretch,
            span.Covers text.toList stretch
            ∧ diagnostic.Mentions (String.ofList (TypedText.ofChars text.toList).complete)
                stretch) := by
  constructor
  · intro rejected
    obtain ⟨stretch, marks, mentions⟩ := Diagnostic.exists_mentions rejected
      (fun _ => Catalog.arisesFrom_of_answerTokens) placed notEnd
    exact ⟨stretch, marks.covers, mentions⟩
  · intro rejected
    have splits := TypedText.splits_iff.mpr (Eq.refl (TypedText.ofChars text.toList))
    rw [Catalog.suggest_eq_bind splits] at rejected
    obtain ⟨stretch, marks, mentions⟩ := Diagnostic.exists_mentions rejected
      (fun _ => Catalog.arisesFrom_of_suggestBehind) placed notEnd
    rw [String.toList_ofList] at marks
    exact ⟨stretch, (marks.of_prefix splits.complete_prefix).covers, mentions⟩

/-- A schema of two databases is reported at the whole reference, over the end of a line. -/
theorem ambiguous_schema_at_reference
    : let text := "FROM \"public\" .\n\"users\" SELECT \""
      ∃ diagnostic span,
        twoRegions.toCatalog.suggest text = .error diagnostic
        ∧ diagnostic = .semantic (.ambiguousSchema "public") (some span)
        ∧ span.Covers text.toList "\"public\" .\n\"users\"".toList := by
  let span : Span := {
    start := { line := 1, column := 6 }
    stop := { line := 2, column := 8 }
  }
  let diagnostic : Diagnostic := .semantic (.ambiguousSchema "public") (some span)
  have rejected
      : twoRegions.toCatalog.suggest "FROM \"public\" .\n\"users\" SELECT \""
        = .error diagnostic := by
    decide +kernel
  have placed : diagnostic.span? = some span := rfl
  obtain ⟨stretch, covers, _⟩ := (diagnostics_point_at_text placed (by decide)).2 rejected
  have whole : some stretch = some "\"public\" .\n\"users\"".toList :=
    covers.cut.symm.trans (by decide)
  exact ⟨diagnostic, span, rejected, rfl, Option.some.inj whole ▸ covers⟩

end TableQuery
