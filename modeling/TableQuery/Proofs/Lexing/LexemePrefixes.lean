import TableQuery.Proofs.Lexing.Layouts

/-! Lexemes at the front of a text.
No lexeme begins with another one, so a text that begins with laid-out lexemes can be laid out
from those lexemes on only.
-/

namespace TableQuery

/-- Two names that are followed by quotes in one text are the same, because neither of them
holds a quote.
-/
theorem eq_of_append_quote {name other left right : List Char} (unquoted : quote ∉ name)
    (otherUnquoted : quote ∉ other)
    (same : name ++ quote :: left = other ++ quote :: right)
    : name = other := by
  have before (text behind : List Char) (free : quote ∉ text)
      : (text ++ quote :: behind).takeWhile (· != quote) = text := by
    have kept : ∀ c ∈ text, (c != quote) = true := by
      intro c member
      exact bne_iff_ne.mpr (ne_of_mem_of_not_mem member free)
    rw [List.takeWhile_append_of_pos kept]
    simp
  rw [← before name left unquoted, same, before other right otherUnquoted]

/-- Two spellings of one keyword are of one length. -/
theorem SpelledInAnyCase.eq_of_append {keyword word other left right : List Char}
    (spelled : SpelledInAnyCase keyword word) (otherSpelled : SpelledInAnyCase keyword other)
    (same : word ++ left = other ++ right)
    : word = other :=
  List.append_inj_left same (spelled.length_eq.trans otherSpelled.length_eq.symm)

/-- No lexeme begins with another one: the initial tells the kind, and of one kind all lexemes
are of one length or end at their second quote.
-/
theorem LexemeForm.eq_of_append {kind otherKind : TokenKind}
    {lexeme other left right : List Char} (form : LexemeForm kind lexeme)
    (otherForm : LexemeForm otherKind other) (same : lexeme ++ left = other ++ right)
    : lexeme = other := by
  have sameKind : kind = otherKind := by
    obtain ⟨first, initial, rest, rfl⟩ := form.exists_initial
    obtain ⟨otherFirst, otherInitial, otherRest, rfl⟩ := otherForm.exists_initial
    obtain ⟨rfl, _⟩ := List.cons.inj same
    exact TokenKind.eq_of_initial initial otherInitial
  subst sameKind
  cases form with
  | selectKeyword spelled =>
      cases otherForm with
      | selectKeyword otherSpelled => exact spelled.eq_of_append otherSpelled same
  | fromKeyword spelled =>
      cases otherForm with
      | fromKeyword otherSpelled => exact spelled.eq_of_append otherSpelled same
  | @identifier name unquoted =>
      cases otherForm with
      | @identifier otherName otherUnquoted =>
          simp only [List.append_assoc, List.cons_append, List.cons.injEq, true_and,
            List.nil_append] at same
          rw [eq_of_append_quote unquoted otherUnquoted same]
  | dot =>
      cases otherForm
      rfl

namespace SpacedLexeme

/-- The separators and the lexeme in front of a text are told by the text. -/
theorem eq_of_text_append {spaced other : SpacedLexeme} {left right : List Char}
    (same : spaced.text ++ left = other.text ++ right)
    : spaced = other ∧ left = right := by
  have gap (spaced : SpacedLexeme) (rest : List Char)
      : (spaced.text ++ rest).takeWhile isSeparator = spaced.gap := by
    obtain ⟨first, initial, more, begins⟩ := spaced.form.exists_initial
    rw [text, List.append_assoc, List.takeWhile_append_of_pos spaced.blank, begins]
    simp [TokenKind.not_separator_of_initial initial]
  have sameGap : spaced.gap = other.gap := by
    rw [← gap spaced left, same, gap]
  rw [text, text, sameGap, List.append_assoc, List.append_assoc, List.append_cancel_left_eq]
    at same
  have sameLexeme := spaced.form.eq_of_append other.form same
  rw [sameLexeme, List.append_cancel_left_eq] at same
  have sameKind := spaced.form.kind_unique (sameLexeme ▸ other.form)
  exact ⟨SpacedLexeme.ext sameGap sameKind sameLexeme, same⟩

/-- Lexemes in front of a text are the first ones of every layout of it, by induction over
them.
-/
theorem exists_more_of_spell_append {front lexemes : List SpacedLexeme}
    {rest trailing : List Char} (blank : ∀ c ∈ trailing, isSeparator c)
    (same : spell front ++ rest = spell lexemes ++ trailing)
    : ∃ more, lexemes = front ++ more ∧ rest = spell more ++ trailing := by
  induction front generalizing lexemes with
  | nil => exact ⟨lexemes, rfl, same⟩
  | cons spaced front ih =>
      cases lexemes with
      | nil =>
          -- The lexeme does not begin with a separator, and nothing else is left.
          obtain ⟨first, initial, more, begins⟩ := spaced.form.exists_initial
          have member : first ∈ trailing := by
            rw [← List.nil_append trailing, ← spell_nil, ← same]
            simp [text, begins]
          have separates := blank first member
          rw [TokenKind.not_separator_of_initial initial] at separates
          cases separates
      | cons other lexemes =>
          rw [spell_cons, spell_cons, List.append_assoc, List.append_assoc] at same
          obtain ⟨rfl, below⟩ := eq_of_text_append same
          obtain ⟨more, rfl, rest⟩ := ih below
          exact ⟨more, rfl, rest⟩

/-- Lexemes and gaps can be told from the text that they spell: the lexemes of each layout are
the first ones of the other.
-/
theorem spell_append_inj {left right : List SpacedLexeme} {leftEnd rightEnd : List Char}
    (leftBlank : ∀ c ∈ leftEnd, isSeparator c) (rightBlank : ∀ c ∈ rightEnd, isSeparator c)
    (same : spell left ++ leftEnd = spell right ++ rightEnd)
    : left = right ∧ leftEnd = rightEnd := by
  obtain ⟨more, rfl, rest⟩ := exists_more_of_spell_append rightBlank same
  obtain ⟨other, shorter, _⟩ := exists_more_of_spell_append leftBlank same.symm
  rw [List.append_assoc, List.self_eq_append_right] at shorter
  obtain ⟨rfl, rfl⟩ := List.append_eq_nil_iff.mp shorter
  exact ⟨(List.append_nil left).symm, rest⟩

end SpacedLexeme

end TableQuery
