import Mathlib.Data.List.Chain
import TableQuery.Proofs.Lexing.LexerSteps
import TableQuery.Proofs.Lexing.TextPlaces

/-! Where the lexer says that it found what it yields.
The position of a lexer is always the one of the text in front of it, however it got there, so
each token and each rejected lexeme is cut out of the text by its own span, and between two of
them there are only separators.
-/

namespace TableQuery

namespace LexedItem

/-- The place of a token, or the one that a diagnostic points at. -/
def span? : LexedItem → Option Span
  | .ok token => some token.span
  | .error diagnostic => diagnostic.span?

/-- A token consists of its lexeme, and a diagnostic quotes the one that it rejects. -/
def Shows (lexeme : String) : LexedItem → Prop
  | .ok token => token.lexeme = lexeme
  | .error diagnostic =>
      diagnostic.message = s!"No matching token for lexeme '{lexeme}'"
      ∨ diagnostic.message = s!"Unterminated quoted identifier '{lexeme}'"

end LexedItem

namespace Span

/-- A span stands for a stretch of a text that is not empty and whose lines and columns are
all counted from one.
-/
structure Covers (text stretch : List Char) (span : Span) : Prop where
  cut : cutOut? text span.start span.stop = some stretch
  forward : ¬ span.stop ≤ span.start
  inText
    : ∀ index ∈ [span.start.line, span.start.column, span.stop.line, span.stop.column],
        1 ≤ index ∧ index ≤ text.length + 1

/-- A span ends where another begins, or only separators are between them. -/
structure LeadsTo (text : List Char) (span next : Span) : Prop where
  ordered : span.stop ≤ next.start
  blank
    : ∃ gap,
        cutOut? text span.stop next.start = some gap
        ∧ ∀ c ∈ gap, c = '\n' ∨ c = ' ' ∨ c = '\t'

/-- The four indices of a span build it again, because its positions hold no other ones. -/
theorem ofIndices_indices (span : Span)
    : ofIndices span.start.line span.start.column span.stop.line span.stop.column
      = .ok span := by
  have := span.start.line_ge
  have := span.start.column_ge
  have := span.stop.line_ge
  have := span.stop.column_ge
  rw [ofIndices, dif_neg (by omega), dif_neg (by omega), dif_neg (by omega),
    dif_neg (by omega)]

/-- Whatever stands for a stretch of a text is not the end of input. -/
theorem Covers.isEndOfInput_eq_false {text stretch : List Char} {span : Span}
    (covers : span.Covers text stretch)
    : span.isEndOfInput = false := by
  rw [isEndOfInput, beq_eq_false_iff_ne]
  intro sentinel
  have counted := (covers.inText span.start.line List.mem_cons_self).1
  rw [sentinel] at counted
  exact absurd counted (by decide)

/-- The span of what is advanced over stands for it. -/
theorem covers_advance (before : List Char) {lexeme : List Char} (notEmpty : lexeme ≠ [])
    (after : List Char)
    : Covers (before ++ lexeme ++ after) lexeme {
        start := Position.first.advance before
        stop := Position.first.advance (before ++ lexeme)
      } := by
  have counted (text : List Char) (part : text <+: before ++ lexeme ++ after)
      : ∀ index ∈ [(Position.first.advance text).line, (Position.first.advance text).column],
          1 ≤ index ∧ index ≤ (before ++ lexeme ++ after).length + 1 := by
    have lines := List.count_le_length (a := '\n') (l := text)
    have columns := length_lastLine_le text
    have inText := part.length_le
    simp only [List.forall_mem_cons, Position.line_advance_first,
      Position.column_advance_first]
    refine ⟨?_, ?_, by simp⟩ <;> omega
  refine ⟨cutOut?_advance before lexeme after, ?_, ?_⟩
  · rw [Position.advance_append]
    exact Position.not_advance_le _ notEmpty
  · have start := counted before ⟨lexeme ++ after, (List.append_assoc _ _ _).symm⟩
    have stop := counted (before ++ lexeme) (List.prefix_append _ after)
    exact List.forall_mem_append.mpr ⟨start, stop⟩

/-- Spans lead to each other over the separators between them. -/
theorem leadsTo_advance {left right : Span} (before : List Char) {gap : List Char}
    (blank : ∀ c ∈ gap, isSeparator c) (after : List Char)
    (stop : left.stop = Position.first.advance before)
    (start : right.start = Position.first.advance (before ++ gap))
    : left.LeadsTo (before ++ gap ++ after) right := by
  refine ⟨?_, gap, ?_, ?_⟩
  · rw [stop, start, Position.advance_append]
    exact Position.le_advance _ gap
  · rw [stop, start]
    exact cutOut?_advance before gap after
  · intro c member
    exact isSeparator_iff.mp (blank c member)

end Span

-----------------------------------------------------------------------------------------
-- Lexers inside a text
-----------------------------------------------------------------------------------------

/-- A lexer stands in a text behind a part of it, at the place where that part ends. -/
structure Lexer.StandsIn (text read : List Char) (lexer : Lexer) : Prop where
  whole : text = read ++ lexer.rest
  position : lexer.position = Position.first.advance read

theorem standsIn_ofText (text : String) : (Lexer.ofText text).StandsIn text.toList [] :=
  ⟨rfl, rfl⟩

/-- A lexeme is shown by what it is read as, at the given place. -/
theorem readLexeme_shows (lexeme : List Char) (span : Span)
    : (readLexeme lexeme span).Shows (String.ofList lexeme)
      ∧ (readLexeme lexeme span).span? = some span := by
  rw [readLexeme]
  split
  · exact ⟨Or.inr rfl, rfl⟩
  · split
    · rename_i token classified
      obtain ⟨sameLexeme, sameSpan⟩ := classify?_eq_some_iff.mp classified
      exact ⟨sameLexeme, congrArg some sameSpan⟩
    · exact ⟨Or.inl rfl, rfl⟩

/-- A lexeme holds its first character, because less than the whole text is left behind it. -/
theorem splitLexeme_fst_ne_nil {first : Char} (rest : List Char)
    (notSeparator : isSeparator first = false)
    : (splitLexeme first rest).1 ≠ [] := by
  intro empty
  have whole := splitLexeme_append first rest
  have shorter := length_splitLexeme_snd_le first rest notSeparator
  rw [empty, List.nil_append] at whole
  rw [whole, List.length_cons] at shorter
  omega

/-- A step goes on over separators and a lexeme, which its item shows at their place.
Witness: the step counts on from the lexer's position, as advancing over both does.
-/
theorem Lexer.StandsIn.step {text read : List Char} {lexer after : Lexer} {item : LexedItem}
    (stands : lexer.StandsIn text read) (step : lexer.next? = some (item, after))
    : ∃ gap lexeme,
        (∀ c ∈ gap, isSeparator c)
        ∧ lexeme ≠ []
        ∧ item.Shows (String.ofList lexeme)
        ∧ item.span? = some {
            start := Position.first.advance (read ++ gap)
            stop := Position.first.advance (read ++ gap ++ lexeme)
          }
        ∧ after.StandsIn text (read ++ gap ++ lexeme) := by
  obtain ⟨gap, first, rest, lexeme, left, blank, notSeparator, ahead, taken, rfl, rfl⟩ :=
    next?_eq_some_iff.mp step
  have rejoined := splitLexeme_append first rest
  have notEmpty := splitLexeme_fst_ne_nil rest notSeparator
  rw [taken] at rejoined notEmpty
  simp only [stands.position, ← Position.advance_append]
  obtain ⟨shown, placed⟩ := readLexeme_shows lexeme {
    start := Position.first.advance (read ++ gap)
    stop := Position.first.advance (read ++ gap ++ lexeme)
  }
  refine ⟨gap, lexeme, blank, notEmpty, shown, placed, ?_, rfl⟩
  rw [stands.whole, ahead, ← rejoined]
  simp only [List.append_assoc]

-----------------------------------------------------------------------------------------
-- Whole runs
-----------------------------------------------------------------------------------------

/-- Items read from a text behind some part of it, each from a lexeme behind separators,
until nothing but separators is left.
-/
inductive ItemsBehind (text : List Char) : List Char → List LexedItem → Prop
  | nil {read trailing} (whole : text = read ++ trailing)
    (blank : ∀ c ∈ trailing, isSeparator c)
    : ItemsBehind text read []
  | cons {read gap lexeme item more} (blank : ∀ c ∈ gap, isSeparator c)
    (notEmpty : lexeme ≠ []) (shown : item.Shows (String.ofList lexeme))
    (placed
      : item.span? = some {
          start := Position.first.advance (read ++ gap)
          stop := Position.first.advance (read ++ gap ++ lexeme)
        })
    (below : ItemsBehind text (read ++ gap ++ lexeme) more)
    : ItemsBehind text read (item :: more)

/-- A run of a lexer reads the text behind it item by item, by induction on the run. -/
theorem Lexer.StandsIn.itemsBehind {text read : List Char} {lexer : Lexer}
    (stands : lexer.StandsIn text read)
    : ItemsBehind text read lexer.items := by
  fun_induction Lexer.items lexer generalizing read with
  | case1 lexer finished => exact .nil stands.whole (next?_eq_none_iff.mp finished)
  | case2 lexer item after step ih =>
      obtain ⟨gap, lexeme, blank, notEmpty, shown, placed, standsAfter⟩ := stands.step step
      exact .cons blank notEmpty shown placed (ih standsAfter)

namespace ItemsBehind

variable {text read : List Char} {items : List LexedItem}

theorem exists_rest (behind : ItemsBehind text read items) : ∃ rest, text = read ++ rest := by
  induction behind with
  | nil whole blank => exact ⟨_, whole⟩
  | @cons read gap lexeme item more blank notEmpty shown placed below ih =>
      obtain ⟨rest, whole⟩ := ih
      exact ⟨gap ++ (lexeme ++ rest), by simpa only [List.append_assoc] using whole⟩

/-- Each item's span covers the lexeme that it shows, by induction over the items. -/
theorem exists_covers (behind : ItemsBehind text read items) {item : LexedItem}
    (member : item ∈ items)
    : ∃ lexeme span,
        item.Shows lexeme
        ∧ item.span? = some span
        ∧ span.Covers text lexeme.toList := by
  induction behind with
  | nil => cases member
  | @cons read gap lexeme head more blank notEmpty shown placed below ih =>
      rcases List.mem_cons.mp member with rfl | later
      · obtain ⟨rest, rfl⟩ := below.exists_rest
        refine ⟨_, _, shown, placed, ?_⟩
        rw [String.toList_ofList]
        exact Span.covers_advance (read ++ gap) notEmpty rest
      · exact ih later

/-- Each item's span leads to the next one's, by induction over the items: the next lexeme
begins behind the separators that follow.
-/
theorem isChain_leadsTo (behind : ItemsBehind text read items)
    : items.IsChain (fun left right =>
        ∀ span ∈ left.span?, ∀ next ∈ right.span?, span.LeadsTo text next) := by
  induction behind with
  | nil => exact .nil
  | @cons read gap lexeme item more blank notEmpty shown placed below ih =>
      cases below with
      | nil => exact .singleton item
      | @cons _ nextGap nextLexeme next rest nextBlank _ _ nextPlaced nextBelow =>
          refine List.isChain_cons_cons.mpr ⟨?_, ih⟩
          intro span isSpan nextSpan isNextSpan
          obtain rfl := Option.some.inj (placed.symm.trans isSpan)
          obtain rfl := Option.some.inj (nextPlaced.symm.trans isNextSpan)
          obtain ⟨left, rfl⟩ := nextBelow.exists_rest
          rw [List.append_assoc _ nextLexeme left]
          exact Span.leadsTo_advance _ nextBlank (nextLexeme ++ left) rfl rfl

end ItemsBehind

/-- Spans are faithful to the text, whatever steps read from it.
The text is read item by item until only separators are left.  Every token and every rejected
lexeme is what its span cuts out, no span is empty or the end of input, and no index of one is
larger than the text admits.  One span leads to the next.
-/
theorem items_span_text (text : String)
    : ItemsBehind text.toList [] (Lexer.ofText text).items
      ∧ (∀ item ∈ (Lexer.ofText text).items,
          ∃ lexeme span,
            item.Shows lexeme
            ∧ item.span? = some span
            ∧ span.Covers text.toList lexeme.toList
            ∧ Span.ofIndices span.start.line span.start.column span.stop.line
                span.stop.column
              = .ok span
            ∧ span.isEndOfInput = false)
      ∧ (Lexer.ofText text).items.IsChain (fun left right =>
          ∀ span ∈ left.span?, ∀ next ∈ right.span?, span.LeadsTo text.toList next) := by
  have behind := (standsIn_ofText text).itemsBehind
  refine ⟨behind, ?_, behind.isChain_leadsTo⟩
  intro item member
  obtain ⟨lexeme, span, shown, placed, covers⟩ := behind.exists_covers member
  exact ⟨lexeme, span, shown, placed, covers, span.ofIndices_indices,
    covers.isEndOfInput_eq_false⟩

end TableQuery
