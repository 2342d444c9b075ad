import TableQuery.Proofs.Lexing.TokenPlaces

/-! Merging the places of tokens in order.
The earlier start is always that of the token in front and the later stop that of the token
behind, so merging comes to the same in whichever way it is done.
-/

namespace TableQuery

/-- Spans in order merge to one from the start of the first to the stop of the second. -/
theorem Span.merge_of_le {left right : Span} (starts : left.start ≤ right.start)
    (stops : left.stop ≤ right.stop)
    : left.merge right = { start := left.start, stop := right.stop } := by
  rw [merge, min_eq_left starts, max_eq_right stops]

/-- A span reaches from the start of the first of some tokens to the stop of the last one. -/
def Span.Reaches (tokens : List Token) (span : Span) : Prop :=
  ∃ first last,
    tokens.head? = some first
    ∧ tokens.getLast? = some last
    ∧ span = { start := first.span.start, stop := last.span.stop }

theorem Token.reaches (token : Token) : token.span.Reaches [token] :=
  ⟨token, token, rfl, rfl, rfl⟩

namespace Span.Reaches

variable {left right : List Token} {leftSpan rightSpan : Span}

/-- The span of tokens in order holds the span of each of them. -/
theorem holds (reaches : leftSpan.Reaches left) (inOrder : TokensInOrder left) {token : Token}
    (member : token ∈ left)
    : leftSpan.start ≤ token.span.start ∧ token.span.stop ≤ leftSpan.stop := by
  obtain ⟨first, last, isFirst, isLast, rfl⟩ := reaches
  obtain ⟨more, rfl⟩ := List.head?_eq_some_iff.mp isFirst
  obtain ⟨front, split⟩ := List.getLast?_eq_some_iff.mp isLast
  constructor
  · rcases List.mem_cons.mp member with rfl | later
    · exact le_refl _
    · calc
        first.span.start ≤ first.span.stop := (inOrder.forward first List.mem_cons_self).le
        _ ≤ token.span.start := (List.pairwise_cons.mp inOrder.ordered).1 token later
  · rw [split] at inOrder member
    rcases List.mem_append.mp member with earlier | isToken
    · calc
        token.span.stop ≤ last.span.start :=
          (List.pairwise_append.mp inOrder.ordered).2.2 token earlier last (by simp)
        _ ≤ last.span.stop := (inOrder.forward last (by simp)).le
    · obtain rfl := List.mem_singleton.mp isToken
      exact le_refl _

theorem start_lt_stop (reaches : leftSpan.Reaches left) (inOrder : TokensInOrder left)
    : leftSpan.start < leftSpan.stop := by
  have ⟨first, _, isFirst, _⟩ := reaches
  have member := List.mem_of_mem_head? isFirst
  obtain ⟨starts, stops⟩ := reaches.holds inOrder member
  exact (starts.trans_lt (inOrder.forward first member)).trans_le stops

/-- The span of some of the tokens lies inside the span of all of them. -/
theorem inside (reaches : leftSpan.Reaches left) (inOrder : TokensInOrder left)
    (partReaches : rightSpan.Reaches right) (part : right.Subset left)
    : leftSpan.start ≤ rightSpan.start ∧ rightSpan.stop ≤ leftSpan.stop := by
  obtain ⟨first, last, isFirst, isLast, rfl⟩ := partReaches
  exact ⟨(reaches.holds inOrder (part (List.mem_of_mem_head? isFirst))).1,
    (reaches.holds inOrder (part (List.mem_of_getLast? isLast))).2⟩

/-- Spans of tokens that follow each other are in order too. -/
theorem stop_le_start (leftReaches : leftSpan.Reaches left)
    (rightReaches : rightSpan.Reaches right)
    (ordered : ∀ token ∈ left, ∀ next ∈ right, token.span.stop ≤ next.span.start)
    : leftSpan.stop ≤ rightSpan.start := by
  obtain ⟨_, last, _, isLast, rfl⟩ := leftReaches
  obtain ⟨first, _, isFirst, _, rfl⟩ := rightReaches
  exact ordered last (List.mem_of_getLast? isLast) first (List.mem_of_mem_head? isFirst)

/-- Merging the spans of tokens that follow each other reaches over all of them. -/
theorem merge (leftReaches : leftSpan.Reaches left) (rightReaches : rightSpan.Reaches right)
    (inOrder : TokensInOrder (left ++ right))
    : (leftSpan.merge rightSpan).Reaches (left ++ right) := by
  have leftForward :=
    leftReaches.start_lt_stop (inOrder.sublist (List.sublist_append_left left right))
  have rightForward :=
    rightReaches.start_lt_stop (inOrder.sublist (List.sublist_append_right left right))
  have apart : leftSpan.stop ≤ rightSpan.start :=
    leftReaches.stop_le_start rightReaches (List.pairwise_append.mp inOrder.ordered).2.2
  have merged := merge_of_le (leftForward.le.trans apart) (apart.trans rightForward.le)
  obtain ⟨first, _, isFirst, _, rfl⟩ := leftReaches
  obtain ⟨_, last, _, isLast, rfl⟩ := rightReaches
  refine ⟨first, last, ?_, ?_, merged⟩
  · rw [List.head?_append, isFirst, Option.some_or]
  · rw [List.getLast?_append, isLast, Option.some_or]

/-- Merging the spans of further tokens one after the other reaches over all of them, by
induction over the further tokens.
-/
theorem foldl_merge (reaches : leftSpan.Reaches left) (inOrder : TokensInOrder (left ++ right))
    : ((right.map Token.span).foldl Span.merge leftSpan).Reaches (left ++ right) := by
  induction right generalizing left leftSpan with
  | nil => rwa [List.append_nil]
  | cons token more ih =>
      rw [List.append_cons] at inOrder ⊢
      have front := inOrder.sublist (List.sublist_append_left (left ++ [token]) more)
      exact ih (reaches.merge token.reaches front) inOrder

end Span.Reaches

/-- Covering tokens in order reaches over all of them: none of them is at the end of input,
which goes nowhere forward.
-/
theorem Span.exists_covering {first : Token} {more : List Token}
    (inOrder : TokensInOrder (first :: more))
    : ∃ span,
        covering ((first :: more).map Token.span) = some span
        ∧ span.Reaches (first :: more) := by
  have placed (span : Span) (member : span ∈ (first :: more).map Token.span)
      : (!span.isEndOfInput) = true := by
    obtain ⟨token, isToken, rfl⟩ := List.mem_map.mp member
    have forward := inOrder.forward token isToken
    rw [Bool.not_eq_true', isEndOfInput, beq_eq_false_iff_ne]
    intro atEnd
    rw [atEnd] at forward
    exact lt_irrefl _ forward
  refine ⟨_, ?_, first.reaches.foldl_merge inOrder⟩
  rw [covering, List.filter_eq_self.mpr placed]
  rfl

end TableQuery
