import TableQuery.Proofs.Reading.StatementGrammar

/-! The points of the statement grammar between two tokens.
A point is all that the kinds in front of it decide about those that may follow.  A statement
can be completed from each point, so the beginnings of statements are exactly the kinds that
lead from the first point to some other one.
-/

namespace TableQuery

/-- Some kinds that follow the given ones make them a statement. -/
def BeginsStatement (kinds : List TokenKind) : Prop :=
  ∃ rest, StatementKinds (kinds ++ rest)

/-- Where a reading of kinds stands.
Behind a name of the table reference, and behind a dot, the room is the number of further
dots that may come.
-/
inductive GrammarPoint where
  | start
  | behindFrom
  | behindName (room : Nat)
  | behindDot (room : Nat)
  | behindSelect
  | behindColumn
deriving DecidableEq

namespace GrammarPoint

/-- The point behind one more kind, where that kind may follow. -/
def next? : GrammarPoint → TokenKind → Option GrammarPoint
  | start, .fromKeyword => some behindFrom
  | behindFrom, .identifier => some (behindName 2)
  | behindName (room + 1), .dot => some (behindDot room)
  | behindDot room, .identifier => some (behindName room)
  | behindName _, .selectKeyword => some behindSelect
  | behindSelect, .identifier => some behindColumn
  | behindColumn, .identifier => some behindColumn
  | _, _ => none

/-- The point behind some more kinds, where each of them may follow those before it. -/
def follow? (point : GrammarPoint) (kinds : List TokenKind) : Option GrammarPoint :=
  kinds.foldlM next? point

@[simp]
theorem follow?_nil (point : GrammarPoint) : point.follow? [] = some point := rfl

@[simp]
theorem follow?_cons (point : GrammarPoint) (kind : TokenKind) (kinds : List TokenKind)
    : point.follow? (kind :: kinds) = (point.next? kind).bind (·.follow? kinds) := rfl

/-- Kinds are followed part by part, by the fold. -/
theorem follow?_append (point : GrammarPoint) (left right : List TokenKind)
    : point.follow? (left ++ right) = (point.follow? left).bind (·.follow? right) :=
  List.foldlM_append

-----------------------------------------------------------------------------------------
-- Points and the grammar
-----------------------------------------------------------------------------------------

/-- Dotted names use up the room behind a name, by induction over them. -/
theorem follow?_dotted {dotted room : Nat} (bounded : dotted ≤ room)
    : (behindName room).follow?
        (List.replicate dotted [TokenKind.dot, TokenKind.identifier]).flatten
      = some (behindName (room - dotted)) := by
  induction dotted generalizing room with
  | zero => rfl
  | succ dotted ih =>
      obtain ⟨room, rfl⟩ := Nat.exists_eq_add_of_lt bounded
      rw [List.replicate_succ, List.flatten_cons, follow?_append]
      have below := @ih (dotted + room) (Nat.le_add_right _ _)
      simpa [next?] using below

theorem follow?_columns (count : Nat)
    : behindColumn.follow? (List.replicate count .identifier) = some behindColumn := by
  induction count with
  | zero => rfl
  | succ count ih => exact ih

/-- Behind a table clause there is room for the dotted names that it does not have. -/
theorem follow?_table {dotted : Nat} (bounded : dotted ≤ 2)
    : start.follow?
        ([.fromKeyword, .identifier]
          ++ (List.replicate dotted [TokenKind.dot, TokenKind.identifier]).flatten)
      = some (behindName (2 - dotted)) := by
  rw [follow?_append]
  exact follow?_dotted bounded

theorem next?_selectKeyword (room : Nat)
    : (behindName room).next? .selectKeyword = some behindSelect := by
  cases room <;> rfl

/-- Only names follow a column. -/
theorem exists_count_of_follow? {kinds : List TokenKind}
    (followed : behindColumn.follow? kinds = some behindColumn)
    : ∃ count, kinds = List.replicate count .identifier := by
  induction kinds with
  | nil => exact ⟨0, rfl⟩
  | cons kind kinds ih =>
      cases kind with
      | identifier =>
          obtain ⟨count, rfl⟩ := ih followed
          exact ⟨count + 1, rfl⟩
      | selectKeyword | fromKeyword | dot => simp [next?] at followed

/-- The keyword of the columns and names complete a statement behind a table reference. -/
theorem columnKinds_of_follow? {kinds : List TokenKind}
    (followed : behindSelect.follow? kinds = some behindColumn)
    : ColumnKinds (.selectKeyword :: kinds) := by
  match kinds with
  | [] => simp at followed
  | .identifier :: names =>
      obtain ⟨count, rfl⟩ := exists_count_of_follow? followed
      exact ⟨count, rfl⟩
  | .selectKeyword :: _ | .fromKeyword :: _ | .dot :: _ => simp [next?] at followed

/-- A statement is completed behind a name by dotted names that fit in the room and a column
clause, by induction on the room.
-/
theorem exists_dotted_of_follow? {room : Nat} {kinds : List TokenKind}
    (followed : (behindName room).follow? kinds = some behindColumn)
    : ∃ dotted ≤ room, ∃ back,
        ColumnKinds back
        ∧ kinds = (List.replicate dotted [TokenKind.dot, TokenKind.identifier]).flatten
          ++ back := by
  induction room generalizing kinds with
  | zero =>
      match kinds with
      | [] => simp at followed
      | .selectKeyword :: columns =>
          exact ⟨0, Nat.le_refl 0, _, columnKinds_of_follow? followed, rfl⟩
      | .identifier :: _ | .fromKeyword :: _ | .dot :: _ => simp [next?] at followed
  | succ room ih =>
      match kinds with
      | [] => simp at followed
      | .selectKeyword :: columns =>
          exact ⟨0, Nat.zero_le _, _, columnKinds_of_follow? followed, rfl⟩
      | [.dot] => simp [next?] at followed
      | .dot :: .identifier :: more =>
          obtain ⟨dotted, bounded, back, columns, rfl⟩ := ih followed
          exact ⟨dotted + 1, Nat.succ_le_succ bounded, back, columns, rfl⟩
      | .dot :: .selectKeyword :: _ | .dot :: .fromKeyword :: _ | .dot :: .dot :: _ =>
          simp [next?] at followed
      | .identifier :: _ | .fromKeyword :: _ => simp [next?] at followed

end GrammarPoint

open GrammarPoint

/-- The kinds of statements are those that lead from the first point behind a column. -/
theorem statementKinds_iff {kinds : List TokenKind}
    : StatementKinds kinds ↔ start.follow? kinds = some behindColumn := by
  constructor
  · rintro ⟨front, back, ⟨dotted, bounded, rfl⟩, ⟨count, rfl⟩, rfl⟩
    rw [follow?_append, follow?_table bounded, Option.bind_some, List.cons_append,
      follow?_cons, next?_selectKeyword]
    exact follow?_columns count
  · intro followed
    match kinds with
    | [] => simp at followed
    | [.fromKeyword] => simp [next?] at followed
    | .fromKeyword :: .identifier :: rest =>
        obtain ⟨dotted, bounded, back, columns, rfl⟩ := exists_dotted_of_follow? followed
        exact ⟨_, back, ⟨dotted, bounded, rfl⟩, columns, rfl⟩
    | .fromKeyword :: .fromKeyword :: _ | .fromKeyword :: .selectKeyword :: _
    | .fromKeyword :: .dot :: _ => simp [next?] at followed
    | .identifier :: _ | .selectKeyword :: _ | .dot :: _ => simp [next?] at followed

/-- A statement can be completed from every point. -/
theorem GrammarPoint.exists_completion (point : GrammarPoint)
    : ∃ rest, point.follow? rest = some behindColumn := by
  have behindTable (room : Nat)
      : (behindName room).follow? [.selectKeyword, .identifier] = some behindColumn := by
    simp [next?]
  cases point with
  | start => exact ⟨[.fromKeyword, .identifier, .selectKeyword, .identifier], rfl⟩
  | behindFrom => exact ⟨[.identifier, .selectKeyword, .identifier], rfl⟩
  | behindName room => exact ⟨_, behindTable room⟩
  | behindDot room => exact ⟨[.identifier, .selectKeyword, .identifier], behindTable room⟩
  | behindSelect => exact ⟨[.identifier], rfl⟩
  | behindColumn => exact ⟨[], rfl⟩

/-- Kinds begin a statement exactly if they lead to some point. -/
theorem beginsStatement_iff {kinds : List TokenKind}
    : BeginsStatement kinds ↔ (start.follow? kinds).isSome := by
  simp only [BeginsStatement, statementKinds_iff, follow?_append, Option.isSome_iff_exists]
  constructor
  · rintro ⟨rest, followed⟩
    obtain ⟨point, reached, _⟩ := Option.bind_eq_some_iff.mp followed
    exact ⟨point, reached⟩
  · rintro ⟨point, reached⟩
    obtain ⟨rest, completed⟩ := point.exists_completion
    exact ⟨rest, Option.bind_eq_some_iff.mpr ⟨point, reached, completed⟩⟩

instance : DecidablePred StatementKinds :=
  fun _ => decidable_of_iff _ statementKinds_iff.symm

instance : DecidablePred BeginsStatement :=
  fun _ => decidable_of_iff _ beginsStatement_iff.symm

/-- One more kind begins a statement behind a point exactly if it may follow there. -/
theorem beginsStatement_concat_iff {kinds : List TokenKind} {point : GrammarPoint}
    (reached : start.follow? kinds = some point) (kind : TokenKind)
    : BeginsStatement (kinds ++ [kind]) ↔ (point.next? kind).isSome := by
  simp [beginsStatement_iff, follow?_append, reached]

end TableQuery
