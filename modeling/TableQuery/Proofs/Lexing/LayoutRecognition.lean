import TableQuery.Proofs.Lexing.LexemePrefixes

/-! The lexer reads exactly the texts of layouts, as their tokens.
Each step takes the first lexeme with its gap, in both directions: a laid-out lexeme is read
as a whole, and a token that was read had the form of its kind.
-/

namespace TableQuery

/-- A step reads a token exactly where a lexeme is laid out that is a dot or ends at a
boundary.  Witness: the token's own kind recognizes what the step split off.
-/
theorem next?_eq_some_ok_iff {lexer after : Lexer} {token : Token}
    : lexer.next? = some (.ok token, after)
      ↔ ∃ spaced : SpacedLexeme,
          lexer.rest = spaced.text ++ after.rest
          ∧ (spaced.kind = .dot ∨ EndsWord after.rest)
          ∧ token = spaced.token lexer.position
          ∧ after.position = lexer.position.advance spaced.text := by
  rw [next?_eq_some_iff]
  constructor
  · intro step
    obtain ⟨gap, first, rest, lexeme, left, blank, notSeparator, whole, taken, read, rfl⟩ :=
      step
    obtain ⟨sameLexeme, sameSpan⟩ := readLexeme_eq_ok_iff.mp read.symm
    have form : LexemeForm token.kind lexeme := by
      have form := recognizes_iff.mp token.recognized
      rwa [sameLexeme, String.toList_ofList] at form
    have rejoined : lexeme ++ left = first :: rest := by
      simpa only [taken] using splitLexeme_append first rest
    refine ⟨⟨gap, token.kind, lexeme, forall_isSeparator_iff.mp blank, form⟩, ?_, ?_, ?_, ?_⟩
    · rw [whole, ← rejoined, SpacedLexeme.text, List.append_assoc]
    · have boundary := endsWord_splitLexeme first rest
      rw [taken] at boundary
      refine boundary.imp_left ?_
      intro isDot
      obtain rfl := isDot
      exact form.kind_unique .dot
    · refine Token.ext rfl sameLexeme ?_
      simp [sameSpan, SpacedLexeme.token, SpacedLexeme.text]
    · simp [SpacedLexeme.text]
  · intro laidOut
    obtain ⟨spaced, whole, apart, rfl, position⟩ := laidOut
    obtain ⟨first, initial, rest, begins⟩ := spaced.form.exists_initial
    have taken := (begins ▸ spaced.form).splitLexeme_append apart
    refine ⟨spaced.gap, first, rest ++ after.rest, first :: rest, after.rest, spaced.blank,
      TokenKind.not_separator_of_initial initial, ?_, taken, ?_, ?_⟩
    · rw [whole, SpacedLexeme.text, begins, List.append_assoc, List.cons_append]
    · symm
      rw [readLexeme_eq_ok_iff, ← begins]
      simp [SpacedLexeme.token, SpacedLexeme.text]
    · cases after
      simp_all [SpacedLexeme.text]

/-- No step is left where no lexeme is laid out. -/
theorem next?_spell_nil {trailing : List Char} (blank : ∀ c ∈ trailing, isSeparator c)
    (position : Position)
    : (Lexer.mk (SpacedLexeme.spell [] ++ trailing) position).next? = none :=
  next?_eq_none_iff.mpr blank

/-- The first of several laid-out lexemes is read by the next step. -/
theorem next?_spell_cons {spaced : SpacedLexeme} {more : List SpacedLexeme}
    (apart : (spaced :: more).IsChain SpacedLexeme.Apart) {trailing : List Char}
    (blank : ∀ c ∈ trailing, isSeparator c) (position : Position)
    : (Lexer.mk (SpacedLexeme.spell (spaced :: more) ++ trailing) position).next?
      = some (.ok (spaced.token position),
          ⟨SpacedLexeme.spell more ++ trailing, position.advance spaced.text⟩) := by
  obtain ⟨boundary, _⟩ := (spaced.isChain_cons_iff more blank).mp apart
  exact next?_eq_some_ok_iff.mpr ⟨spaced, by simp, boundary, rfl, rfl⟩

/-- A run of the lexer is decided by its first step. -/
theorem tokenize_eq (lexer : Lexer)
    : lexer.tokenize.1
      = match lexer.next? with
        | none => .ok []
        | some (.error diagnostic, _) => .error diagnostic
        | some (.ok token, after) => after.tokenize.1.map (token :: ·) := by
  rw [Lexer.tokenize]
  split <;> rename_i step <;> simp only [step]

/-- Laid-out lexemes are read as their tokens, by induction: each step takes one of them. -/
theorem tokenize_spell {lexemes : List SpacedLexeme}
    (apart : lexemes.IsChain SpacedLexeme.Apart) {trailing : List Char}
    (blank : ∀ c ∈ trailing, isSeparator c) (position : Position)
    : (Lexer.mk (SpacedLexeme.spell lexemes ++ trailing) position).tokenize.1
      = .ok (SpacedLexeme.tokensFrom position lexemes) := by
  induction lexemes generalizing position with
  | nil =>
      rw [tokenize_eq, next?_spell_nil blank]
      rfl
  | cons spaced more ih =>
      rw [tokenize_eq, next?_spell_cons apart blank]
      simp only [ih apart.tail]
      rfl

/-- Tokens that were read are those of lexemes laid out in the text, by induction on the
run: the boundary behind each token keeps it apart from the next.
-/
theorem exists_lexemes_of_tokenize (lexer : Lexer) {tokens : List Token}
    (read : lexer.tokenize.1 = .ok tokens)
    : ∃ lexemes trailing,
        lexer.rest = SpacedLexeme.spell lexemes ++ trailing
        ∧ lexemes.IsChain SpacedLexeme.Apart
        ∧ (∀ c ∈ trailing, isSeparator c)
        ∧ tokens = SpacedLexeme.tokensFrom lexer.position lexemes := by
  fun_induction Lexer.tokenize lexer generalizing tokens with
  | case1 lexer step =>
      obtain rfl : [] = tokens := Except.ok.inj read
      exact ⟨[], lexer.rest, rfl, .nil, next?_eq_none_iff.mp step, rfl⟩
  | case2 lexer diagnostic after step => cases read
  | case3 lexer token after step rest final more ih =>
      cases rest with
      | error diagnostic => cases read
      | ok behind =>
          obtain rfl : token :: behind = tokens := Except.ok.inj read
          obtain ⟨spaced, whole, boundary, rfl, position⟩ := next?_eq_some_ok_iff.mp step
          obtain ⟨lexemes, trailing, same, apart, blank, rfl⟩ := ih (congrArg Prod.fst more)
          refine ⟨spaced :: lexemes, trailing, ?_, ?_, blank, ?_⟩
          · rw [whole, same, SpacedLexeme.spell_cons, List.append_assoc]
          · rw [same] at boundary
            exact (spaced.isChain_cons_iff lexemes blank).mpr ⟨boundary, apart⟩
          · rw [SpacedLexeme.tokensFrom, position]

/-- Only a lexical diagnostic ends a run of the lexer early, by induction on the run. -/
theorem stage_of_tokenize (lexer : Lexer) {diagnostic : Diagnostic}
    (rejected : lexer.tokenize.1 = .error diagnostic)
    : diagnostic.stage = .lexical := by
  fun_induction Lexer.tokenize lexer with
  | case1 lexer step => cases rejected
  | case2 lexer fault after step =>
      obtain rfl : fault = diagnostic := Except.error.inj rejected
      obtain ⟨_, _, _, lexeme, _, _, _, _, _, read, _⟩ := next?_eq_some_iff.mp step
      rw [readLexeme] at read
      split at read
      · rw [Except.error.inj read]
        rfl
      · split at read
        · cases read
        · rw [Except.error.inj read]
          rfl
  | case3 lexer token after step rest final more ih =>
      cases rest with
      | error fault => exact ih (by rw [more]; exact rejected)
      | ok behind => cases rejected

/-- A text is read as tokens exactly if a layout of it stands for them. -/
theorem tokensOf_eq_ok_iff {text : String} {tokens : List Token}
    : tokensOf text = .ok tokens
      ↔ ∃ layout : Layout, layout.text = text.toList ∧ layout.tokens = tokens := by
  constructor
  · intro read
    obtain ⟨lexemes, trailing, whole, apart, blank, rfl⟩ := exists_lexemes_of_tokenize _ read
    exact ⟨⟨lexemes, trailing, apart, forall_isSeparator_iff.mp blank⟩,
      whole.symm, rfl⟩
  · intro laidOut
    obtain ⟨layout, whole, rfl⟩ := laidOut
    rw [tokensOf, Lexer.ofText, ← whole]
    exact tokenize_spell layout.apart layout.blank .first

/-- A text is laid out in one way only. -/
theorem Layout.text_injective : Function.Injective Layout.text := by
  intro left right same
  obtain ⟨sameLexemes, sameTrailing⟩ :=
    SpacedLexeme.spell_append_inj left.blank right.blank same
  exact Layout.ext sameLexemes sameTrailing

/-- The lexer accepts exactly the texts of layouts and yields their lexemes in order, each
with its kind and unchanged.  A text has at most one layout, so the tokens are unique, and a
text without a layout is rejected by a lexical diagnostic.
-/
theorem tokensOf_reads_layouts
    : (∀ text tokens,
        tokensOf text = .ok tokens
          ↔ ∃ layout : Layout, layout.text = text.toList ∧ layout.tokens = tokens)
      ∧ (∀ layout : Layout,
          layout.tokens.map (fun token => (token.kind, token.lexeme.toList))
            = layout.lexemes.map (fun spaced => (spaced.kind, spaced.lexeme)))
      ∧ Function.Injective Layout.text
      ∧ (∀ text,
          (∃ layout : Layout, layout.text = text.toList)
          ∨ ∃ diagnostic, tokensOf text = .error diagnostic ∧ diagnostic.stage = .lexical) := by
  refine ⟨fun _ _ => tokensOf_eq_ok_iff, ?_, Layout.text_injective, ?_⟩
  · intro layout
    exact SpacedLexeme.map_tokensFrom Prod.mk .first layout.lexemes
  · intro text
    cases read : tokensOf text with
    | ok tokens =>
        obtain ⟨layout, whole, _⟩ := tokensOf_eq_ok_iff.mp read
        exact Or.inl ⟨layout, whole⟩
    | error diagnostic => exact Or.inr ⟨diagnostic, rfl, stage_of_tokenize _ read⟩

end TableQuery
