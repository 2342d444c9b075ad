import TableQuery.Proofs.Lexing.LayoutRecognition
import TableQuery.Proofs.Lexing.TextPlaces

/-! The places of the tokens of a text in relation to each other.
Every token begins in front of its own end and does not begin before the end of the one in
front of it, so tokens can be told apart by where they begin or by where they end.
-/

namespace TableQuery

/-- Tokens stand one behind the other, and each of them goes forward. -/
structure TokensInOrder (tokens : List Token) : Prop where
  forward : ∀ token ∈ tokens, token.span.start < token.span.stop
  ordered : tokens.Pairwise (fun left right => left.span.stop ≤ right.span.start)

theorem TokensInOrder.sublist {left right : List Token} (inOrder : TokensInOrder right)
    (sub : left.Sublist right)
    : TokensInOrder left :=
  ⟨fun token member => inOrder.forward token (sub.subset member), inOrder.ordered.sublist sub⟩

namespace SpacedLexeme

/-- No lexeme is empty, because it begins with an initial of its kind. -/
theorem lexeme_ne_nil (spaced : SpacedLexeme) : spaced.lexeme ≠ [] := by
  obtain ⟨first, _, rest, begins⟩ := spaced.form.exists_initial
  rw [begins]
  exact List.cons_ne_nil first rest

theorem start_lt_stop_token (position : Position) (spaced : SpacedLexeme)
    : (spaced.token position).span.start < (spaced.token position).span.stop := by
  simp only [token, text, Position.advance_append]
  exact lt_of_not_ge (Position.not_advance_le _ spaced.lexeme_ne_nil)

/-- Tokens begin behind the position that they are counted from, by induction over their
lexemes.
-/
theorem le_start_of_mem_tokensFrom {position : Position} {lexemes : List SpacedLexeme}
    {token : Token} (member : token ∈ tokensFrom position lexemes)
    : position ≤ token.span.start := by
  induction lexemes generalizing position with
  | nil => cases member
  | cons spaced more ih =>
      rcases List.mem_cons.mp member with rfl | later
      · exact Position.le_advance position spaced.gap
      · exact (Position.le_advance position spaced.text).trans (ih later)

/-- Lexemes one after the other are tokens in order, by induction over them. -/
theorem tokensInOrder_tokensFrom (position : Position) (lexemes : List SpacedLexeme)
    : TokensInOrder (tokensFrom position lexemes) := by
  induction lexemes generalizing position with
  | nil => exact ⟨nofun, .nil⟩
  | cons spaced more ih =>
      obtain ⟨forward, ordered⟩ := ih (position.advance spaced.text)
      refine ⟨List.forall_mem_cons.mpr ⟨spaced.start_lt_stop_token position, forward⟩, ?_⟩
      exact List.pairwise_cons.mpr ⟨fun _ later => le_start_of_mem_tokensFrom later, ordered⟩

end SpacedLexeme

/-- The tokens of a text stand in order. -/
theorem tokensInOrder_of_tokensOf {text : String} {tokens : List Token}
    (read : tokensOf text = .ok tokens)
    : TokensInOrder tokens := by
  obtain ⟨layout, _, rfl⟩ := tokensOf_eq_ok_iff.mp read
  exact SpacedLexeme.tokensInOrder_tokensFrom .first layout.lexemes

/-- No token of a text is at the end of input: it begins on the first line or below. -/
theorem span_ne_endOfInput_of_tokensOf {text : String} {tokens : List Token}
    (read : tokensOf text = .ok tokens)
    : ∀ token ∈ tokens, token.span ≠ Span.endOfInput := by
  intro token member atEnd
  obtain ⟨layout, _, rfl⟩ := tokensOf_eq_ok_iff.mp read
  have placed := SpacedLexeme.le_start_of_mem_tokensFrom member
  rw [atEnd] at placed
  exact absurd placed (by decide)

end TableQuery
