import TableQuery.Proofs.Completion.CursorPlaces
import TableQuery.Proofs.Lexing.QuotePairs

/-! Splitting a typed text at a name that is still open.
Complete lexemes and separators hold an even number of quotes, so a name is taken off exactly
where the cursor stands inside one, and what is left is laid out like the text before it.
-/

namespace TableQuery

theorem splitAtLastQuote_eq_none {text : List Char} (unquoted : quote ∉ text)
    : TypedText.splitAtLastQuote text = none := by
  induction text with
  | nil => rfl
  | cons c rest ih =>
      rw [List.mem_cons, not_or] at unquoted
      rw [TypedText.splitAtLastQuote, ih unquoted.2]
      exact if_neg (Ne.symm unquoted.1)

/-- The last quote is the one that no quote follows, by induction over what precedes it. -/
theorem splitAtLastQuote_append (before : List Char) {behind : List Char}
    (unquoted : quote ∉ behind)
    : TypedText.splitAtLastQuote (before ++ quote :: behind) = some (before, behind) := by
  induction before with
  | nil =>
      rw [List.nil_append, TypedText.splitAtLastQuote, splitAtLastQuote_eq_none unquoted]
      rfl
  | cons c before ih => rw [List.cons_append, TypedText.splitAtLastQuote, ih]

theorem TypedText.ofChars_closed {text : List Char} (closed : hasOpenQuote text = false)
    : ofChars text = { complete := text, openName := [] } := by
  rw [ofChars, closed]
  rfl

theorem TypedText.ofChars_open {before behind : List Char}
    (closed : hasOpenQuote before = false) (unquoted : quote ∉ behind)
    : ofChars (before ++ quote :: behind) = { complete := before, openName := behind } := by
  have opened : hasOpenQuote (before ++ quote :: behind) = true := by
    rw [hasOpenQuote_append_quote before unquoted, closed]
    rfl
  rw [ofChars, opened, splitAtLastQuote_append before unquoted]
  rfl

/-- A text without an open quote is complete, and one with an open quote is split at its last
quote, in front of which none is open.
-/
inductive TypedText.Splits (text : List Char) : TypedText → Prop
  | closed (closed : hasOpenQuote text = false)
    : Splits text { complete := text, openName := [] }
  | opened {before behind} (whole : text = before ++ quote :: behind)
    (closed : hasOpenQuote before = false) (unquoted : quote ∉ behind)
    : Splits text { complete := before, openName := behind }

/-- A text with an open quote holds a last quote, in front of which none is open: the quotes
in front are one less.
-/
theorem exists_last_quote {text : List Char} (opened : hasOpenQuote text)
    : ∃ before behind,
        text = before ++ quote :: behind
        ∧ hasOpenQuote before = false
        ∧ quote ∉ behind := by
  have odd : text.count quote % 2 = 1 := by simpa [hasOpenQuote] using opened
  have member : quote ∈ text.reverse := by
    rw [List.mem_reverse, ← List.count_pos_iff]
    omega
  obtain ⟨behind, before, reversed, unquoted⟩ := List.eq_append_cons_of_mem member
  have whole : text = before.reverse ++ quote :: behind.reverse := by
    simpa using congrArg List.reverse reversed
  have unquotedBehind : quote ∉ behind.reverse := by simpa using unquoted
  refine ⟨before.reverse, behind.reverse, whole, ?_, unquotedBehind⟩
  rwa [whole, hasOpenQuote_append_quote _ unquotedBehind, Bool.not_eq_true'] at opened

/-- A text splits in one way, which is the computed one. -/
theorem TypedText.splits_iff {text : List Char} {typed : TypedText}
    : Splits text typed ↔ ofChars text = typed := by
  constructor
  · intro splits
    cases splits with
    | closed closed => exact ofChars_closed closed
    | opened whole closed unquoted => exact whole ▸ ofChars_open closed unquoted
  · intro split
    subst split
    cases quotes : hasOpenQuote text with
    | false =>
        rw [ofChars_closed quotes]
        exact .closed quotes
    | true =>
        obtain ⟨before, behind, whole, closed, unquoted⟩ := exists_last_quote quotes
        rw [whole, ofChars_open closed unquoted]
        exact .opened rfl closed unquoted

/-- No name is open behind complete lexemes and separators, by induction over the lexemes:
each holds its quotes in pairs.
-/
theorem hasOpenQuote_spell (lexemes : List SpacedLexeme) {gap : List Char}
    (blank : ∀ c ∈ gap, isSeparator c)
    : hasOpenQuote (SpacedLexeme.spell lexemes ++ gap) = false := by
  induction lexemes with
  | nil => exact hasOpenQuote_of_blank blank
  | cons spaced more ih =>
      rw [SpacedLexeme.spell_cons, SpacedLexeme.text, List.append_assoc, List.append_assoc,
        hasOpenQuote_append (hasOpenQuote_of_blank spaced.blank),
        hasOpenQuote_append spaced.form.hasOpenQuote_eq_false]
      exact ih

/-- A begun and unfinished part of a quoted name is a quote and the beginning of the name. -/
theorem exists_openName {name part missing : List Char}
    (partOf : quote :: name ++ [quote] = part ++ missing) (begun : part ≠ [])
    (unfinished : missing ≠ [])
    : ∃ typed, part = quote :: typed ∧ typed <+: name := by
  rcases List.prefix_concat_iff.mp ⟨missing, partOf.symm⟩ with whole | inFront
  · rw [whole, List.self_eq_append_right] at partOf
    exact absurd partOf unfinished
  · exact (List.prefix_cons_iff.mp inFront).resolve_left begun

/-- Outside keywords the text before a cursor is split into complete lexemes, separators, and
what was typed of the name that the cursor stands in.
-/
theorem EndsAt.exists_ofChars {lexemes read : List SpacedLexeme} {typed : List Char}
    {place : CursorPlace} (ends : EndsAt lexemes typed read place)
    (notInKeyword : ¬ place.InKeyword)
    : ∃ gap,
        (∀ c ∈ gap, isSeparator c)
        ∧ TypedText.ofChars typed
          = { complete := SpacedLexeme.spell read ++ gap, openName := place.openName } := by
  cases ends with
  | @between _ _ gap split blank =>
      exact ⟨gap, blank, TypedText.ofChars_closed (hasOpenQuote_spell read blank)⟩
  | @inside _ spaced _ part missing split partOf begun unfinished =>
      have blank := spaced.blank
      obtain ⟨gap, kind, lexeme, separators, form⟩ := spaced
      cases form with
      | selectKeyword | fromKeyword => exact absurd trivial notInKeyword
      | @identifier name unquoted =>
          obtain ⟨openName, rfl, inName⟩ := exists_openName partOf begun unfinished
          refine ⟨gap, blank, ?_⟩
          rw [← List.append_assoc]
          exact TypedText.ofChars_open (hasOpenQuote_spell read blank)
            (fun member => unquoted (inName.subset member))
      | dot =>
          have lengths := congrArg List.length partOf
          have partLength := List.length_pos_iff.mpr begun
          have missingLength := List.length_pos_iff.mpr unfinished
          simp only [List.length_singleton, List.length_append] at lengths
          omega

end TableQuery
