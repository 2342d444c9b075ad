import TableQuery.Proofs.Reading.DrawnEntries

/-! What the drawing of a syntax tree tells.
The marks in front of the entries tell which of them stand below which, so trees that are drawn
alike have the same form.  Of a statement a drawing shows the names, in which all else that it
shows is settled.
-/

namespace TableQuery

namespace SyntaxTree

mutual

/-- Two trees have the same form, with the same rules and with tokens that are alike. -/
def Alike : SyntaxTree → SyntaxTree → Prop
  | leaf token, leaf other => token.Alike other
  | branch kind children, branch other others => kind = other ∧ AllAlike children others
  | leaf _, branch _ _ | branch _ _, leaf _ => False

/-- Two lists of trees are alike tree by tree. -/
def AllAlike : List SyntaxTree → List SyntaxTree → Prop
  | [], [] => True
  | tree :: rest, other :: others => tree.Alike other ∧ AllAlike rest others
  | [], _ :: _ | _ :: _, [] => False

end

theorem allAlike_iff {trees others : List SyntaxTree}
    : AllAlike trees others ↔ List.Forall₂ Alike trees others := by
  induction trees generalizing others with
  | nil => cases others <;> simp [AllAlike]
  | cons tree trees ih => cases others <;> simp [AllAlike, ih]

/-- What a child is drawn with in front of its own entry, given its later siblings. -/
def connector (rest : List SyntaxTree) : String :=
  if rest.isEmpty then "└── " else "├── "

/-- What a child is drawn with in front of the entries below its own. -/
def continuation (rest : List SyntaxTree) : String :=
  if rest.isEmpty then "    " else "│   "

variable {rest others : List SyntaxTree} {mark markBelow : String}

/-- Connectors can be told from the text behind them, and show whether a child is the last. -/
theorem connector_append_inj {text other : String}
    (same : connector rest ++ text = connector others ++ other)
    : rest.isEmpty = others.isEmpty ∧ text = other := by
  simp only [connector, ← String.toList_inj] at same ⊢
  cases restEmpty : rest.isEmpty <;> cases othersEmpty : others.isEmpty <;>
    simp_all

/-- No continuation begins as a connector does. -/
theorem connector_append_ne_continuation (text other : String)
    : connector rest ++ text ≠ continuation others ++ other := by
  simp only [connector, continuation, ne_eq, ← String.toList_inj]
  cases rest.isEmpty <;> cases others.isEmpty <;> simp

/-- Children are drawn one after the other, each hung on its marks. -/
theorem entriesBelow_cons (child : SyntaxTree) (rest : List SyntaxTree)
    : entriesBelow (child :: rest)
      = hang (connector rest) (continuation rest) child.entries ++ entriesBelow rest := by
  cases rest with
  | nil => simp [entriesBelow, connector, continuation]
  | cons next rest => rfl

/-- Every drawing has an entry for the root. -/
theorem exists_entries (tree : SyntaxTree) : ∃ root below, tree.entries = root :: below := by
  cases tree with
  | leaf token => exact ⟨_, _, rfl⟩
  | branch kind children => exact ⟨_, _, rfl⟩

/-- Below a node there is nothing exactly if it has no children. -/
theorem entriesBelow_eq_nil_iff {trees : List SyntaxTree}
    : entriesBelow trees = [] ↔ trees = [] := by
  cases trees with
  | nil => simp [entriesBelow]
  | cons child rest =>
      obtain ⟨root, below, drawn⟩ := child.exists_entries
      simp [entriesBelow_cons, drawn, hang]

/-- The entries below a node begin with a connector, so they are not below a child of it. -/
theorem head_entriesBelow_ne (trees : List SyntaxTree)
    : ∀ head ∈ (entriesBelow trees).head?, ∀ text, head ≠ continuation rest ++ text := by
  intro head isHead text
  cases trees with
  | nil => cases isHead
  | cons child later =>
      obtain ⟨root, below, drawn⟩ := child.exists_entries
      rw [entriesBelow_cons, drawn] at isHead
      obtain rfl : connector later ++ root = head := Option.some.inj isHead
      exact connector_append_ne_continuation root text

/-- Entries below a mark can be told from those behind them that have other marks, by
induction over them.
-/
theorem map_append_inj {below belowOther behind behindOther : List String}
    (apart : ∀ head ∈ behind.head?, ∀ text, head ≠ markBelow ++ text)
    (apartToo : ∀ head ∈ behindOther.head?, ∀ text, head ≠ markBelow ++ text)
    (same
      : below.map (markBelow ++ ·) ++ behind = belowOther.map (markBelow ++ ·) ++ behindOther)
    : below = belowOther ∧ behind = behindOther := by
  induction below generalizing belowOther with
  | nil =>
      cases belowOther with
      | nil => exact ⟨rfl, same⟩
      | cons entry belowOther =>
          have isHead : behind.head? = some (markBelow ++ entry) := by
            simp [show behind = _ from same]
          exact absurd rfl (apart _ isHead entry)
  | cons entry below ih =>
      cases belowOther with
      | nil =>
          have isHead : behindOther.head? = some (markBelow ++ entry) := by
            simp [show behindOther = _ from same.symm]
          exact absurd rfl (apartToo _ isHead entry)
      | cons other belowOther =>
          obtain ⟨sameEntry, sameBelow⟩ := List.cons.inj same
          obtain ⟨rfl, rfl⟩ := ih sameBelow
          exact ⟨by rw [(String.append_right_inj markBelow).mp sameEntry], rfl⟩

mutual

/-- Trees have the same entries exactly if they are alike, rule by rule: a token is shown in
angle brackets and a rule is not.
-/
theorem entries_eq_iff
    : ∀ tree other : SyntaxTree, tree.entries = other.entries ↔ tree.Alike other
  | leaf token, leaf other => by simp [entries, Alike, Token.display_eq_iff]
  | leaf token, branch kind children => by simp [entries, Alike, token.display_ne_name]
  | branch kind children, leaf token => by simp [entries, Alike, (token.display_ne_name _).symm]
  | branch kind children, branch other others => by
    simp only [entries, Alike, List.cons.injEq, NodeKind.name_inj,
      entriesBelow_eq_iff children others]

/-- Children have the same entries exactly if they are alike, child by child: the connectors
and continuations of a child tell its entries from those of the children behind it.
-/
theorem entriesBelow_eq_iff
    : ∀ trees others : List SyntaxTree,
        entriesBelow trees = entriesBelow others ↔ AllAlike trees others
  | [], [] => by simp [AllAlike]
  | [], other :: others => by
    have drawn : entriesBelow (other :: others) ≠ [] := by simp [entriesBelow_eq_nil_iff]
    simp [AllAlike, entriesBelow, drawn.symm]
  | tree :: trees, [] => by simp [AllAlike, entriesBelow, entriesBelow_eq_nil_iff]
  | tree :: trees, other :: others => by
    have first := entries_eq_iff tree other
    have further := entriesBelow_eq_iff trees others
    obtain ⟨root, below, drawn⟩ := tree.exists_entries
    obtain ⟨rootOther, belowOther, drawnOther⟩ := other.exists_entries
    rw [AllAlike, ← first, ← further, entriesBelow_cons, entriesBelow_cons, drawn, drawnOther]
    constructor
    · intro same
      obtain ⟨sameRoot, sameBelow⟩ := List.cons.inj same
      obtain ⟨bothLast, rfl⟩ := connector_append_inj sameRoot
      have sameMark : continuation trees = continuation others := by
        simp only [continuation, bothLast]
      rw [sameMark] at sameBelow
      obtain ⟨rfl, behind⟩ :=
        map_append_inj (head_entriesBelow_ne trees) (head_entriesBelow_ne others) sameBelow
      exact ⟨rfl, behind⟩
    · rintro ⟨sameEntries, behind⟩
      have bothLast : trees.isEmpty = others.isEmpty := by
        rw [Bool.eq_iff_iff, List.isEmpty_iff, List.isEmpty_iff, ← entriesBelow_eq_nil_iff,
          ← entriesBelow_eq_nil_iff, behind]
      simp only [connector, continuation, bothLast, sameEntries, behind]

end

-----------------------------------------------------------------------------------------
-- Lines
-----------------------------------------------------------------------------------------

/-- Entries stay entries behind marks without quotes and line breaks. -/
theorem endsEntry_hang {drawn : List String}
    (plain : ∀ c ∈ mark.toList, c ≠ '\n' ∧ c ≠ quote)
    (plainBelow : ∀ c ∈ markBelow.toList, c ≠ '\n' ∧ c ≠ quote)
    (ends : ∀ entry ∈ drawn, EndsEntry false entry.toList)
    : ∀ entry ∈ hang mark markBelow drawn, EndsEntry false entry.toList := by
  cases drawn with
  | nil => exact ends
  | cons root below =>
      obtain ⟨rootEnds, belowEnds⟩ := List.forall_mem_cons.mp ends
      refine List.forall_mem_cons.mpr ⟨?_, ?_⟩
      · rw [String.toList_append, endsEntry_append plain]
        exact rootEnds
      · refine List.forall_mem_map.mpr (fun entry member => ?_)
        rw [String.toList_append, endsEntry_append plainBelow]
        exact belowEnds entry member

theorem connector_plain (rest : List SyntaxTree)
    : ∀ c ∈ (connector rest).toList, c ≠ '\n' ∧ c ≠ quote := by
  rw [connector]
  split <;> simp [quote]

theorem continuation_plain (rest : List SyntaxTree)
    : ∀ c ∈ (continuation rest).toList, c ≠ '\n' ∧ c ≠ quote := by
  rw [continuation]
  split <;> simp [quote]

mutual

/-- All that a drawing consists of are entries, node by node. -/
theorem endsEntry_entries
    : ∀ tree : SyntaxTree, ∀ entry ∈ tree.entries, EndsEntry false entry.toList
  | leaf token => by simpa [entries] using token.endsEntry_display
  | branch kind children =>
    List.forall_mem_cons.mpr ⟨kind.endsEntry_name, endsEntry_entriesBelow children⟩

theorem endsEntry_entriesBelow
    : ∀ trees : List SyntaxTree, ∀ entry ∈ entriesBelow trees, EndsEntry false entry.toList
  | [] => by simp [entriesBelow]
  | child :: rest => by
    rw [entriesBelow_cons]
    refine List.forall_mem_append.mpr ⟨?_, endsEntry_entriesBelow rest⟩
    exact endsEntry_hang (connector_plain rest) (continuation_plain rest)
      (endsEntry_entries child)

end

/-- Trees are drawn alike exactly if they are alike. -/
theorem render_eq_iff {tree other : SyntaxTree}
    : tree.render = other.render ↔ tree.Alike other := by
  rw [← entries_eq_iff]
  constructor
  · exact lines_inj tree.endsEntry_entries other.endsEntry_entries
  · intro same
    rw [render, render, same]

end SyntaxTree

-----------------------------------------------------------------------------------------
-- Statements
-----------------------------------------------------------------------------------------

/-- Keywords are alike, and so are dots: they show nothing but their kind. -/
theorem TokenOf.alike {kind : TokenKind} (unnamed : kind ≠ .identifier)
    (left right : TokenOf kind)
    : left.token.Alike right.token := by
  rw [← Token.display_eq_iff, Token.display, Token.display, left.kind_eq, right.kind_eq]
  cases kind with
  | selectKeyword | fromKeyword | dot => rfl
  | identifier => exact absurd rfl unnamed

/-- Identifiers are alike exactly if they have the same name, which their lexemes spell. -/
theorem Identifier.alike_iff {left right : Identifier}
    : left.token.Alike right.token ↔ left.name = right.name := by
  simp only [Token.Alike, left.kind_eq, right.kind_eq, true_and]
  constructor
  · intro sameLexeme
    rw [TokenOf.name, TokenOf.name, sameLexeme]
  · intro sameName
    rw [← String.toList_inj, toList_lexeme, toList_lexeme, sameName]

/-- Lists of identifiers are alike exactly if they have the same names. -/
theorem forall₂_alike_iff {identifiers others : List Identifier}
    : List.Forall₂ Token.Alike (identifiers.map TokenOf.token) (others.map TokenOf.token)
      ↔ identifiers.map TokenOf.name = others.map TokenOf.name := by
  rw [← List.forall₂_eq_eq_eq]
  simp only [List.forall₂_map_left_iff, List.forall₂_map_right_iff, Identifier.alike_iff]

/-- References are alike exactly if they have the same names, by induction over the further
names: the dots between these are always alike.
-/
theorem TableRef.alike_iff {left right : TableRef}
    : List.Forall₂ Token.Alike left.tokens right.tokens ↔ left.names = right.names := by
  obtain ⟨first, more⟩ := left
  obtain ⟨other, others⟩ := right
  have dots := fun left right : DottedPart => TokenOf.alike (by decide) left.dot right.dot
  simp only [tokens, names, parts, List.forall₂_cons, List.map_cons, List.cons.injEq,
    Identifier.alike_iff, and_congr_right_iff]
  intro _
  induction more generalizing others with
  | nil => cases others <;> simp
  | cons dotted more ih => cases others <;> simp [dots, Identifier.alike_iff, ih]

/-- Tokens that are alike up to a keyword and behind it are alike in front of it, because no
token in front of it is of its kind, by induction over these.
-/
theorem forall₂_append_cons_iff {front frontOther behind behindOther : List Token}
    {keyword keywordOther : Token} (alike : keyword.Alike keywordOther)
    (none : ∀ token ∈ front, token.kind ≠ keyword.kind)
    (noneOther : ∀ token ∈ frontOther, token.kind ≠ keyword.kind)
    : List.Forall₂ Token.Alike (front ++ keyword :: behind)
        (frontOther ++ keywordOther :: behindOther)
      ↔ List.Forall₂ Token.Alike front frontOther
        ∧ List.Forall₂ Token.Alike behind behindOther := by
  induction front generalizing frontOther with
  | nil =>
      cases frontOther with
      | nil => simp [alike]
      | cons other frontOther =>
          have different := (List.forall_mem_cons.mp noneOther).1
          have unlike : ¬ keyword.Alike other := fun both => different both.1.symm
          simp [unlike]
  | cons token front ih =>
      obtain ⟨different, noneBelow⟩ := List.forall_mem_cons.mp none
      cases frontOther with
      | nil =>
          have unlike : ¬ token.Alike keywordOther := fun both =>
            different (both.1.trans alike.1.symm)
          simp [unlike]
      | cons other frontOther =>
          have below := ih noneBelow (List.forall_mem_cons.mp noneOther).2
          simp [below, and_assoc]

/-- A reference has no keyword in it. -/
theorem TableRef.kind_ne_selectKeyword (table : TableRef)
    : ∀ token ∈ table.tokens, token.kind ≠ .selectKeyword := by
  intro token member
  rcases List.mem_cons.mp member with rfl | later
  · simp [TokenOf.kind_eq]
  · obtain ⟨dotted, _, isToken⟩ := List.mem_flatMap.mp later
    simp only [List.mem_cons, List.not_mem_nil, or_false] at isToken
    rcases isToken with rfl | rfl <;> simp [TokenOf.kind_eq]

namespace Statement

variable {left right : Statement}

/-- The keywords of two statements are alike, in whatever case they are written. -/
theorem keywords_alike (left right : Statement)
    : left.fromClause.keyword.token.Alike right.fromClause.keyword.token
      ∧ left.selectClause.keyword.token.Alike right.selectClause.keyword.token := by
  constructor
  · exact TokenOf.alike (by decide) _ _
  · exact TokenOf.alike (by decide) _ _

/-- The trees of two statements are alike exactly if the statements have the same names. -/
theorem tree_alike_iff
    : left.tree.Alike right.tree
      ↔ left.fromClause.table.names = right.fromClause.table.names
        ∧ left.selectClause.names = right.selectClause.names := by
  obtain ⟨froms, selects⟩ := keywords_alike left right
  simp [tree, SyntaxTree.Alike, SyntaxTree.AllAlike, froms, selects, SyntaxTree.allAlike_iff,
    ← TableRef.alike_iff, SelectClause.names, ← forall₂_alike_iff]

/-- The tokens of two statements are alike exactly if the statements have the same names. -/
theorem tokens_alike_iff
    : List.Forall₂ Token.Alike left.tokens right.tokens
      ↔ left.fromClause.table.names = right.fromClause.table.names
        ∧ left.selectClause.names = right.selectClause.names := by
  obtain ⟨froms, selects⟩ := keywords_alike left right
  have inFront (statement : Statement)
      : ∀ token ∈ statement.fromClause.table.tokens,
          token.kind ≠ left.selectClause.keyword.token.kind := by
    rw [left.selectClause.keyword.kind_eq]
    exact statement.fromClause.table.kind_ne_selectKeyword
  simp only [tokens, FromClause.tokens, SelectClause.tokens, SelectClause.names,
    List.cons_append, List.forall₂_cons, froms, true_and,
    forall₂_append_cons_iff selects (inFront left) (inFront right), TableRef.alike_iff,
    forall₂_alike_iff]

end Statement

/-- Two statements are drawn alike exactly if they name the same table parts and the same columns
in the same order, whatever the names look like.
-/
theorem display_tells_names (left right : Statement)
    : (left.display = right.display
        ↔ left.fromClause.table.names = right.fromClause.table.names
          ∧ left.selectClause.names = right.selectClause.names)
      ∧ (left.display = right.display ↔ List.Forall₂ Token.Alike left.tokens right.tokens) := by
  have drawn : left.display = right.display ↔ left.tree.Alike right.tree :=
    SyntaxTree.render_eq_iff
  rw [drawn, Statement.tokens_alike_iff, Statement.tree_alike_iff]
  exact ⟨Iff.rfl, Iff.rfl⟩

end TableQuery
