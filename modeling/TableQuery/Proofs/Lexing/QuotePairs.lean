import TableQuery.Lexer

/-! Quotes in pairs.
A name is open behind a text whose quotes do not come in pairs.  Inside of quotes only the end
of the text ends a word, so whatever stands behind a lexeme begins where no name is open.
-/

namespace TableQuery

theorem quote_not_mem_of_blank {gap : List Char} (blank : ∀ c ∈ gap, isSeparator c)
    : quote ∉ gap := by
  intro member
  exact absurd (blank quote member) (by decide)

theorem hasOpenQuote_append {left right : List Char} (closed : hasOpenQuote left = false)
    : hasOpenQuote (left ++ right) = hasOpenQuote right := by
  simp only [hasOpenQuote, beq_eq_false_iff_ne, ne_eq] at closed
  have even : left.count quote % 2 = 0 := by omega
  simp [hasOpenQuote, List.count_append, Nat.add_mod, even]

theorem hasOpenQuote_of_blank {gap : List Char} (blank : ∀ c ∈ gap, isSeparator c)
    : hasOpenQuote gap = false := by
  simp [hasOpenQuote, List.count_eq_zero_of_not_mem (quote_not_mem_of_blank blank)]

/-- A quote in front opens a name where none was open, and closes it otherwise. -/
theorem hasOpenQuote_cons (c : Char) (rest : List Char)
    : hasOpenQuote (c :: rest) = (c == quote ^^ hasOpenQuote rest) := by
  simp only [hasOpenQuote, List.count_cons]
  cases c == quote with
  | false => simp
  | true =>
      rw [Bool.eq_iff_iff]
      simp only [reduceIte, beq_iff_eq, Bool.true_bne, Bool.not_eq_true', beq_eq_false_iff_ne]
      omega

/-- Behind the last quote of a text a name is open exactly if none was open in front of it. -/
theorem hasOpenQuote_append_quote (before : List Char) {behind : List Char}
    (unquoted : quote ∉ behind)
    : hasOpenQuote (before ++ quote :: behind) = !hasOpenQuote before := by
  rw [Bool.eq_iff_iff]
  simp only [hasOpenQuote, List.count_append, List.count_cons_self,
    List.count_eq_zero_of_not_mem unquoted, beq_iff_eq, Bool.not_eq_true', beq_eq_false_iff_ne]
  omega

/-- A word in front of more text closes the names that it opens, by induction over the text:
inside of quotes only the end of the text ends a word.
-/
theorem hasOpenQuote_splitWord (quoted : Bool) {text : List Char}
    (followed : (splitWord quoted text).2 ≠ [])
    : hasOpenQuote (splitWord quoted text).1 = quoted := by
  induction text generalizing quoted with
  | nil => exact absurd rfl followed
  | cons c rest ih =>
      rw [splitWord] at followed ⊢
      split
      · rename_i boundary
        have outside : quoted = false := by simpa using (Bool.and_eq_true_iff.mp boundary).1
        rw [outside]
        rfl
      · rename_i inWord
        rw [if_neg inWord] at followed
        -- A quote counts once in the word and once in the flag that is handed on.
        have below := ih (quoted ^^ c == quote) followed
        simp only [hasOpenQuote_cons, below]
        cases quoted <;> simp

/-- A lexeme that leaves a name open takes all of the text. -/
theorem splitLexeme_snd_of_hasOpenQuote {first : Char} {rest : List Char}
    (opened : hasOpenQuote (splitLexeme first rest).1)
    : (splitLexeme first rest).2 = [] := by
  rw [splitLexeme] at opened ⊢
  split at opened
  · rename_i isDot
    have closed : hasOpenQuote ['.'] = false := by decide
    simp [isDot, closed] at opened
  · rename_i notDot
    rw [if_neg notDot]
    apply Decidable.byContradiction
    intro followed
    rw [hasOpenQuote_splitWord false followed] at opened
    cases opened

end TableQuery
