import TableQuery.Completion
import TableQuery.Proofs.Lexing.Layouts

/-! Where a cursor stands in a laid-out text.
A cursor stands between two lexemes or inside one, and every beginning of the text ends at
such a place.
-/

namespace TableQuery

/-- Where a cursor stands: between lexemes, or inside one of which a part has been typed. -/
inductive CursorPlace where
  | between
  | inside (kind : TokenKind) (part : List Char)

namespace CursorPlace

/-- The cursor stands strictly inside a keyword. -/
def InKeyword : CursorPlace → Prop
  | inside .fromKeyword _ | inside .selectKeyword _ => True
  | between | inside .identifier _ | inside .dot _ => False

/-- What was typed of the name that the cursor stands in. -/
def openName : CursorPlace → List Char
  | inside .identifier part => part.tail
  | between | inside .selectKeyword _ | inside .fromKeyword _ | inside .dot _ => []

/-- Nothing can be listed at a place behind lexemes of some kinds: the table clause has not
begun, or a name of it has just ended.
-/
def OutsideLists (place : CursorPlace) (kinds : List TokenKind) : Prop :=
  .fromKeyword ∉ kinds
    ∨ place = .between ∧ kinds.getLast? = some .identifier ∧ .selectKeyword ∉ kinds

/-- A name of the table reference is awaited at a place behind lexemes of some kinds, or has
been typed in part.
-/
def InTable (place : CursorPlace) (kinds : List TokenKind) : Prop :=
  place = .between ∧ (kinds.getLast? = some .fromKeyword ∨ kinds.getLast? = some .dot)
    ∨ (∃ part, place = .inside .identifier part) ∧ .selectKeyword ∉ kinds

end CursorPlace

/-- A typed text ends at a place of laid-out lexemes, with those before it completely read. -/
inductive EndsAt (lexemes : List SpacedLexeme)
    : List Char → List SpacedLexeme → CursorPlace → Prop
  | between {read rest gap} (split : lexemes = read ++ rest)
    (blank : ∀ c ∈ gap, isSeparator c)
    : EndsAt lexemes (SpacedLexeme.spell read ++ gap) read .between
  | inside {read spaced rest part missing} (split : lexemes = read ++ spaced :: rest)
    (partOf : spaced.lexeme = part ++ missing) (begun : part ≠ []) (unfinished : missing ≠ [])
    : EndsAt lexemes (SpacedLexeme.spell read ++ (spaced.gap ++ part)) read
        (.inside spaced.kind part)

namespace EndsAt

variable {lexemes : List SpacedLexeme} {typed : List Char} {read : List SpacedLexeme}
  {place : CursorPlace}

theorem exists_rest (ends : EndsAt lexemes typed read place)
    : ∃ rest, lexemes = read ++ rest := by
  cases ends with
  | between split => exact ⟨_, split⟩
  | inside split => exact ⟨_, split⟩

/-- Separators in front of the first lexeme end before it. -/
theorem of_blank {gap : List Char} (blank : ∀ c ∈ gap, isSeparator c)
    : EndsAt lexemes gap [] .between :=
  @between lexemes [] lexemes gap rfl blank

theorem cons (spaced : SpacedLexeme) (ends : EndsAt lexemes typed read place)
    : EndsAt (spaced :: lexemes) (spaced.text ++ typed) (spaced :: read) place := by
  cases ends with
  | between split blank =>
      rw [← List.append_assoc, ← SpacedLexeme.spell_cons]
      exact .between (congrArg (spaced :: ·) split) blank
  | inside split partOf begun unfinished =>
      rw [← List.append_assoc, ← SpacedLexeme.spell_cons]
      exact .inside (congrArg (spaced :: ·) split) partOf begun unfinished

end EndsAt

/-- A text typed up to the end of a lexeme at most ends in front of it, inside it or right
behind it.
-/
theorem SpacedLexeme.exists_endsAt {spaced : SpacedLexeme} {typed missing : List Char}
    (more : List SpacedLexeme) (whole : spaced.text = typed ++ missing)
    : ∃ read place, EndsAt (spaced :: more) typed read place := by
  -- The typed text reaches behind the gap, with some part of the lexeme, or ends in the gap.
  rcases List.append_eq_append_iff.mp whole with
    ⟨part, rfl, partOf⟩ | ⟨gapLeft, sameGap, _⟩
  · by_cases begun : part = []
    · subst begun
      rw [List.append_nil]
      exact ⟨[], .between, .of_blank spaced.blank⟩
    by_cases unfinished : missing = []
    · subst unfinished
      rw [List.append_nil] at whole
      rw [← whole, ← List.append_nil spaced.text]
      exact ⟨[spaced], .between, (EndsAt.of_blank (by simp)).cons spaced⟩
    · have inFirst : spaced :: more = [] ++ spaced :: more := rfl
      exact ⟨[], _, .inside inFirst partOf begun unfinished⟩
  · have blank : ∀ c ∈ typed, isSeparator c := by
      intro c member
      exact spaced.blank c (sameGap ▸ List.mem_append_left gapLeft member)
    exact ⟨[], .between, .of_blank blank⟩

/-- Every text typed up to some point of laid-out lexemes ends at a place of them, by
induction: it ends in the first lexeme or behind it.
-/
theorem exists_endsAt_of_typed {lexemes : List SpacedLexeme} {trailing typed : List Char}
    (blank : ∀ c ∈ trailing, isSeparator c)
    (before : typed <+: SpacedLexeme.spell lexemes ++ trailing)
    : ∃ read place, EndsAt lexemes typed read place := by
  induction lexemes generalizing typed with
  | nil => exact ⟨[], .between, .of_blank (fun c member => blank c (before.subset member))⟩
  | cons spaced more ih =>
      obtain ⟨missing, whole⟩ := before
      rw [SpacedLexeme.spell_cons, List.append_assoc] at whole
      rcases List.append_eq_append_iff.mp whole with ⟨ahead, inFirst, _⟩ | ⟨behind, rfl, same⟩
      · exact spaced.exists_endsAt more inFirst
      · obtain ⟨read, place, ends⟩ := ih ⟨missing, same.symm⟩
        exact ⟨spaced :: read, place, ends.cons spaced⟩

end TableQuery
