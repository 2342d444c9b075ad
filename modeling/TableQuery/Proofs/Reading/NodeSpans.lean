import TableQuery.Proofs.Answers.Traversals
import TableQuery.Proofs.Lexing.MarkedText
import TableQuery.Proofs.Reading.ReferenceSpans
import TableQuery.Proofs.Reading.StatementGrammar

/-! The places of the nodes of a syntax tree.
Each rule merges the places of its parts in a way of its own.  Tokens stand in order, so every
way comes to the same: from the start of a node's first token to the stop of its last one.
-/

namespace TableQuery

-----------------------------------------------------------------------------------------
-- Spans of clauses
-----------------------------------------------------------------------------------------

theorem FromClause.reaches {clause : FromClause} (inOrder : TokensInOrder clause.tokens)
    : clause.span.Reaches clause.tokens :=
  clause.keyword.token.reaches.merge
    (TableRef.reaches (inOrder.sublist (List.sublist_cons_self _ _))) inOrder

theorem SelectClause.columns_reach {clause : SelectClause}
    (inOrder : TokensInOrder (clause.columns.map TokenOf.token))
    : clause.columnsSpan.Reaches (clause.columns.map TokenOf.token) := by
  obtain ⟨span, covered, reaches⟩ := Span.exists_covering inOrder
  have columnsCovered : Span.covering (clause.columns.map TokenOf.span) = some span := by
    rw [← covered, ← List.map_cons, ← columns, List.map_map]
    rfl
  rw [columnsSpan, columnsCovered]
  exact reaches

theorem SelectClause.reaches {clause : SelectClause} (inOrder : TokensInOrder clause.tokens)
    : clause.span.Reaches clause.tokens :=
  clause.keyword.token.reaches.merge
    (columns_reach (inOrder.sublist (List.sublist_cons_self _ _))) inOrder

theorem Statement.reaches {statement : Statement} (inOrder : TokensInOrder statement.tokens)
    : statement.span.Reaches statement.tokens :=
  (FromClause.reaches (inOrder.sublist (List.sublist_append_left _ _))).merge
    (SelectClause.reaches (inOrder.sublist (List.sublist_append_right _ _))) inOrder

-----------------------------------------------------------------------------------------
-- Nodes
-----------------------------------------------------------------------------------------

/-- A node of the syntax tree of a statement: a rule of the grammar with what it was read from,
or a single token.
-/
inductive SyntaxNode where
  | statement (statement : Statement)
  | fromClause (clause : FromClause)
  | table (table : TableRef)
  | selectClause (clause : SelectClause)
  | columnList (clause : SelectClause)
  | column (column : Identifier)
  | token (token : Token)

namespace SyntaxNode

def tokens : SyntaxNode → List Token
  | statement whole => whole.tokens
  | fromClause clause => clause.tokens
  | table reference => reference.tokens
  | selectClause clause => clause.tokens
  | columnList clause => clause.columns.map TokenOf.token
  | column name => [name.token]
  | token leaf => [leaf]

/-- The place that the rule of a node gives it. -/
def span : SyntaxNode → Span
  | statement whole => whole.span
  | fromClause clause => clause.span
  | table reference => reference.span
  | selectClause clause => clause.span
  | columnList clause => clause.columnsSpan
  | column name => name.span
  | token leaf => leaf.span

/-- The nodes right below a node, in source order. -/
def children : SyntaxNode → List SyntaxNode
  | statement whole => [fromClause whole.fromClause, selectClause whole.selectClause]
  | fromClause clause => [token clause.keyword.token, table clause.table]
  | table reference => reference.tokens.map token
  | selectClause clause => [token clause.keyword.token, columnList clause]
  | columnList clause => clause.columns.map column
  | column name => [token name.token]
  | token _ => []

/-- A tree contains its root and the children of every node that it contains. -/
inductive Contains (root : SyntaxNode) : SyntaxNode → Prop
  | root : root.Contains root
  | child {node child} (contains : root.Contains node) (isChild : child ∈ node.children)
    : root.Contains child

/-- A node has the tokens of its children, one child after the other. -/
theorem tokens_eq_flatMap {node : SyntaxNode} (inner : node.children ≠ [])
    : node.tokens = node.children.flatMap tokens := by
  cases node with
  | statement whole => simp [tokens, children, Statement.tokens]
  | fromClause clause => simp [tokens, children, FromClause.tokens]
  | table reference => simp [tokens, children, List.flatMap_map]
  | selectClause clause => simp [tokens, children, SelectClause.tokens]
  | columnList clause =>
      rw [children, List.flatMap_map, tokens, List.map_eq_flatMap]
      rfl
  | column name => rfl
  | token => exact absurd rfl inner

/-- The tokens of a node stand together among those of every tree that contains it, by
induction on the way down to the node.
-/
theorem Contains.tokens_isInfix {root node : SyntaxNode} (contains : root.Contains node)
    : node.tokens <:+: root.tokens := by
  induction contains with
  | root => exact List.infix_refl _
  | @child node child _ isChild ih =>
      rw [tokens_eq_flatMap (List.ne_nil_of_mem isChild)] at ih
      obtain ⟨before, behind, split⟩ := List.append_of_mem isChild
      rw [split, List.flatMap_append, List.flatMap_cons] at ih
      exact List.IsInfix.trans ⟨_, _, List.append_assoc _ _ _⟩ ih

/-- Every node reaches over its tokens, rule by rule. -/
theorem reaches {node : SyntaxNode} (inOrder : TokensInOrder node.tokens)
    : node.span.Reaches node.tokens := by
  cases node with
  | statement => exact Statement.reaches inOrder
  | fromClause => exact FromClause.reaches inOrder
  | table => exact TableRef.reaches inOrder
  | selectClause => exact SelectClause.reaches inOrder
  | columnList => exact SelectClause.columns_reach inOrder
  | column name => exact name.token.reaches
  | token leaf => exact leaf.reaches

/-- A node of the syntax tree of a text has its exact place: it reaches from its first token to
its last one and covers what they were read from.  Its children lie inside it, one behind the
other.
-/
structure Placed (text : List Char) (node : SyntaxNode) : Prop where
  reaches : node.span.Reaches node.tokens
  covers : ∃ stretch, node.span.Covers text stretch ∧ SpelledBy node.tokens stretch
  inside
    : ∀ child ∈ node.children,
        node.span.start ≤ child.span.start ∧ child.span.stop ≤ node.span.stop
  ordered : node.children.Pairwise (fun left right => left.span.stop ≤ right.span.start)

/-- A node is placed by the order of its tokens, with all nodes below it. -/
theorem placed_of_isInfix {layout : Layout} {node : SyntaxNode}
    (inOrder : TokensInOrder layout.tokens) (part : node.tokens <:+: layout.tokens)
    : node.Placed layout.text := by
  have nodeOrder := inOrder.sublist part.sublist
  have nodeReaches := reaches nodeOrder
  have below (child : SyntaxNode) (isChild : child ∈ node.children)
      : child.tokens <:+: node.tokens :=
    (Contains.root.child isChild).tokens_isInfix
  have childReaches (child : SyntaxNode) (isChild : child ∈ node.children)
      : child.span.Reaches child.tokens :=
    reaches (nodeOrder.sublist (below child isChild).sublist)
  refine ⟨nodeReaches, ?_, ?_, ?_⟩
  · obtain ⟨front, back, split⟩ := part
    obtain ⟨first, last, isFirst, isLast, place⟩ := nodeReaches
    obtain ⟨more, spelled⟩ := List.head?_eq_some_iff.mp isFirst
    rw [spelled] at split isLast
    obtain ⟨stretch, spelledBy, marks⟩ := layout.exists_marks split.symm isLast
    exact ⟨stretch, place ▸ marks.covers, spelled ▸ spelledBy⟩
  · intro child isChild
    exact nodeReaches.inside nodeOrder (childReaches child isChild) (below child isChild).subset
  · by_cases inner : node.children = []
    · rw [inner]
      exact .nil
    · have ordered := nodeOrder.ordered
      rw [tokens_eq_flatMap inner, List.pairwise_flatMap] at ordered
      refine ordered.2.imp_of_mem ?_
      intro left right isLeft isRight apart
      exact (childReaches left isLeft).stop_le_start (childReaches right isRight) apart

end SyntaxNode

-----------------------------------------------------------------------------------------
-- Whole texts
-----------------------------------------------------------------------------------------

/-- A text without the separators in front of it and behind it. -/
def trimSeparators (text : List Char) : List Char :=
  (text.dropWhile isSeparator).rdropWhile isSeparator

/-- What begins and ends in other characters is left when the separators around it go. -/
theorem trimSeparators_append {gap piece trailing : List Char}
    (blank : ∀ c ∈ gap, isSeparator c) (blankBehind : ∀ c ∈ trailing, isSeparator c)
    (begins : ∃ first rest, piece = first :: rest ∧ isSeparator first = false)
    (ends : ∃ front last, piece = front ++ [last] ∧ isSeparator last = false)
    : trimSeparators (gap ++ piece ++ trailing) = piece := by
  have inFront : (gap ++ piece ++ trailing).dropWhile isSeparator = piece ++ trailing := by
    obtain ⟨first, rest, rfl, notSeparator⟩ := begins
    rw [List.append_assoc, List.dropWhile_append_of_pos blank, List.cons_append,
      List.dropWhile_cons_of_neg (by simp [notSeparator])]
  rw [trimSeparators, inFront]
  obtain ⟨front, last, rfl, notSeparator⟩ := ends
  have blankReversed : ∀ c ∈ trailing.reverse, isSeparator c := by simpa using blankBehind
  rw [List.rdropWhile, List.reverse_append, List.dropWhile_append_of_pos blankReversed,
    List.reverse_append, List.reverse_singleton, List.singleton_append,
    List.dropWhile_cons_of_neg (by simp [notSeparator])]
  simp

/-- The tokens of a text reach over all of it but the separators around them. -/
theorem Layout.cutOut?_eq_trim {layout : Layout} {span : Span}
    (reaches : span.Reaches layout.tokens)
    : cutOut? layout.text span.start span.stop = some (trimSeparators layout.text) := by
  have blank := layout.blank
  obtain ⟨lexemes, trailing, apart, separators⟩ := layout
  obtain ⟨first, last, isFirst, isLast, rfl⟩ := reaches
  cases lexemes with
  | nil => cases isFirst
  | cons spaced more =>
      obtain rfl := Option.some.inj isFirst
      have begins : ∃ initial rest,
          spaced.lexeme ++ SpacedLexeme.spell more = initial :: rest
          ∧ isSeparator initial = false := by
        obtain ⟨initial, isInitial, rest, begins⟩ := spaced.form.exists_initial
        exact ⟨initial, rest ++ SpacedLexeme.spell more, by rw [begins, List.cons_append],
          TokenKind.not_separator_of_initial isInitial⟩
      have ends : ∃ front final,
          spaced.lexeme ++ SpacedLexeme.spell more = front ++ [final]
          ∧ isSeparator final = false := by
        rcases List.eq_nil_or_concat' more with rfl | ⟨inner, behind, rfl⟩
        · simpa using spaced.form.exists_last
        · obtain ⟨front, final, ends, notSeparator⟩ := behind.form.exists_last
          refine ⟨spaced.lexeme ++ SpacedLexeme.spell inner ++ behind.gap ++ front, final, ?_,
            notSeparator⟩
          simp [SpacedLexeme.text, ends]
      have whole : Layout.text ⟨spaced :: more, trailing, apart, separators⟩
          = spaced.gap ++ (spaced.lexeme ++ SpacedLexeme.spell more) ++ trailing := by
        simp [Layout.text, SpacedLexeme.text]
      have stop : last.span.stop
          = Position.first.advance (spaced.gap ++ (spaced.lexeme ++ SpacedLexeme.spell more)) := by
        rw [SpacedLexeme.stop_of_getLast?_tokensFrom isLast, SpacedLexeme.spell_cons,
          SpacedLexeme.text, List.append_assoc]
      rw [whole, trimSeparators_append spaced.blank blank begins ends, stop]
      exact cutOut?_advance spaced.gap (spaced.lexeme ++ SpacedLexeme.spell more) trailing

/-- Every node of a syntax tree has its exact place in the text.
From the statement down to its tokens, a node reaches from its first token to its last one,
covers what they were read from, and holds its children one behind the other.  The statement
covers all of the text but the separators around it.
-/
theorem syntax_nodes_placed {text : String} {tokens : List Token} {statement : Statement}
    (read : tokensOf text = .ok tokens)
    (accepted : Statement.ofTokens? tokens = .ok statement)
    : statement.tokens = tokens
      ∧ (∀ node, (SyntaxNode.statement statement).Contains node → node.Placed text.toList)
      ∧ cutOut? text.toList statement.span.start statement.span.stop
        = some (trimSeparators text.toList) := by
  have inOrder := tokensInOrder_of_tokensOf read
  obtain ⟨spelled, _⟩ := ofTokens?_eq_ok_iff.mp accepted
  obtain ⟨layout, whole, rfl⟩ := tokensOf_eq_ok_iff.mp read
  rw [← whole]
  refine ⟨spelled, ?_, ?_⟩
  · intro node contains
    have part : node.tokens <:+: layout.tokens := spelled ▸ contains.tokens_isInfix
    exact SyntaxNode.placed_of_isInfix inOrder part
  · have reaches := Statement.reaches (spelled ▸ inOrder)
    rw [spelled] at reaches
    exact layout.cutOut?_eq_trim reaches

/-- The place of a statement over three lines leaves out the blank ends of the text. -/
theorem statement_placed_over_lines
    : let text := "\n FROM \"a\" .\n\"b\" SELECT \"c\nd\" \"e\"\t"
      ∃ tokens statement,
        tokensOf text = .ok tokens
        ∧ Statement.ofTokens? tokens = .ok statement
        ∧ cutOut? text.toList statement.span.start statement.span.stop
          = some "FROM \"a\" .\n\"b\" SELECT \"c\nd\" \"e\"".toList := by
  intro text
  have answered : (tokensOf text >>= Statement.ofTokens?).isOk := by
    decide +kernel
  cases parsed : tokensOf text >>= Statement.ofTokens? with
  | error diagnostic =>
      rw [parsed] at answered
      cases answered
  | ok statement =>
      obtain ⟨tokens, read, accepted⟩ := bind_eq_ok_iff.mp parsed
      obtain ⟨_, _, cut⟩ := syntax_nodes_placed read accepted
      refine ⟨tokens, statement, read, accepted, cut.trans ?_⟩
      decide

end TableQuery
