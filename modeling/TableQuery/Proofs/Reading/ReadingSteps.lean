import TableQuery.Proofs.Reading.ParserRuns

/-! What each rule of the statement reader takes from a token list.
A rule that succeeds has taken exactly the tokens of what it yields, and given these tokens
it yields the same again, whatever follows that it could not take as well.
-/

namespace TableQuery

/-- The token list does not begin with a token of a kind. -/
def LacksAhead (kind : TokenKind) (tokens : List Token) : Prop :=
  ∀ token ∈ tokens.head?, token.kind ≠ kind

/-- Whether a kind is ahead is seen from the first kind alone. -/
theorem lacksAhead_iff_head? {kind : TokenKind} {tokens : List Token}
    : LacksAhead kind tokens ↔ (tokens.map Token.kind).head? ≠ some kind := by
  cases tokens with
  | nil => simp [LacksAhead]
  | cons token rest => simp [LacksAhead]

/-- Expecting a kind succeeds exactly where a token of that kind is ahead. -/
theorem expect_eq_ok_iff {kind : TokenKind} {tokens rest : List Token} {known : TokenOf kind}
    : expect kind tokens = .ok (known, rest) ↔ tokens = known.token :: rest := by
  cases tokens with
  | nil => simp [expect]
  | cons token behind =>
      rw [expect]
      constructor
      · intro taken
        split at taken
        · cases taken
          rfl
        · cases taken
      · intro same
        obtain ⟨rfl, rfl⟩ := List.cons.inj same
        exact dif_pos known.kind_eq

/-- Expecting a kind fails at the end of the tokens, or with the token that is ahead. -/
theorem expect_eq_error_iff {kind : TokenKind} {tokens : List Token} {diagnostic : Diagnostic}
    : expect kind tokens = .error diagnostic
      ↔ tokens = [] ∧ diagnostic = .unexpectedEnd kind
        ∨ ∃ found rest,
            tokens = found :: rest
            ∧ found.kind ≠ kind
            ∧ diagnostic = .unexpectedToken (.token kind) found := by
  cases tokens with
  | nil => simp [expect, eq_comm]
  | cons token rest =>
      rw [expect]
      split
      · rename_i same
        simp [same]
      · rename_i other
        simp [Ne.symm other, eq_comm]

@[simp]
theorem expect_nil (kind : TokenKind) : expect kind [] = .error (.unexpectedEnd kind) := rfl

/-- A token of the expected kind is taken. -/
@[simp]
theorem expect_token {kind : TokenKind} (known : TokenOf kind) (rest : List Token)
    : expect kind (known.token :: rest) = .ok (known, rest) :=
  expect_eq_ok_iff.mpr rfl

/-- Expecting a kind fails where no token of that kind is ahead. -/
theorem LacksAhead.exists_diagnostic {kind : TokenKind} {tokens : List Token}
    (lacks : LacksAhead kind tokens)
    : ∃ diagnostic, expect kind tokens = .error diagnostic := by
  cases tokens with
  | nil => exact ⟨_, rfl⟩
  | cons token rest => exact ⟨_, dif_neg (lacks token rfl)⟩

/-- No token of the expected kind is ahead where expecting it fails. -/
theorem lacksAhead_of_expect {kind : TokenKind} {tokens : List Token}
    {diagnostic : Diagnostic} (missing : expect kind tokens = .error diagnostic)
    : LacksAhead kind tokens := by
  rcases expect_eq_error_iff.mp missing with ⟨rfl, _⟩ | ⟨found, rest, rfl, other, _⟩
  · exact nofun
  · simpa [LacksAhead] using other

/-- A token of one kind is ahead, so none of another kind is. -/
theorem lacksAhead_token {kind other : TokenKind} (known : TokenOf kind) (rest : List Token)
    (different : kind ≠ other)
    : LacksAhead other (known.token :: rest) := by
  intro token ahead
  obtain rfl := Option.some.inj ahead
  rw [known.kind_eq]
  exact different

/-- The tokens of further names, each with its dot. -/
def dottedTokens (more : List DottedPart) : List Token :=
  more.flatMap (fun dotted => [dotted.dot.token, dotted.part.token])

namespace TableRef

/-- The reference with more names behind it. -/
def extend (table : TableRef) (more : List DottedPart) : TableRef :=
  { table with more := table.more ++ more }

@[simp]
theorem length_parts (table : TableRef) : table.parts.length = table.more.length + 1 := by
  simp [parts]

@[simp]
theorem extend_nil (table : TableRef) : table.extend [] = table := by
  simp [extend]

@[simp]
theorem push_extend (table : TableRef) (dotted : DottedPart) (more : List DottedPart)
    : (table.push dotted.dot dotted.part).extend more = table.extend (dotted :: more) := by
  simp [extend, push]

/-- Names that were read are within the limit and were written in the text, and the reading
went on as far as the limit and the dots ahead allowed, by induction on the limit.
-/
theorem exists_more_of_readMore {table full : TableRef} {limit : Nat}
    {tokens rest : List Token} (read : table.readMore limit tokens = .ok (full, rest))
    : ∃ more,
        more.length ≤ limit
        ∧ (more.length = limit ∨ LacksAhead .dot rest)
        ∧ full = table.extend more
        ∧ tokens = dottedTokens more ++ rest := by
  induction limit generalizing table tokens with
  | zero =>
      cases read
      exact ⟨[], Nat.le_refl 0, Or.inl rfl, by simp, rfl⟩
  | succ limit ih =>
      rw [readMore] at read
      split at read
      · rename_i missing
        cases read
        exact ⟨[], Nat.zero_le _, Or.inr (lacksAhead_of_expect missing), by simp, rfl⟩
      · rename_i dot afterDot dotTaken
        split at read
        · cases read
        · rename_i part afterPart partTaken
          obtain ⟨more, bounded, stops, rfl, rfl⟩ := ih read
          refine ⟨⟨dot, part⟩ :: more, Nat.succ_le_succ bounded, ?_, ?_, ?_⟩
          · exact stops.imp_left (congrArg Nat.succ)
          · exact push_extend table ⟨dot, part⟩ more
          · rw [expect_eq_ok_iff.mp dotTaken, expect_eq_ok_iff.mp partTaken]
            rfl

/-- Written names within the limit are read whatever follows them, and the reading goes on
from there, by induction over the names.
-/
theorem readMore_dottedTokens (table : TableRef) (more : List DottedPart) (rest : List Token)
    {limit : Nat} (bounded : more.length ≤ limit)
    : table.readMore limit (dottedTokens more ++ rest)
      = (table.extend more).readMore (limit - more.length) rest := by
  induction more generalizing table limit with
  | nil => simp [dottedTokens]
  | cons dotted more ih =>
      cases limit with
      | zero => cases bounded
      | succ limit =>
          have below := ih (table.push dotted.dot dotted.part) (Nat.le_of_succ_le_succ bounded)
          rw [push_extend] at below
          simpa [dottedTokens, readMore] using below

/-- Nothing more is read where the limit is reached or no dot is ahead. -/
theorem readMore_of_stops (table : TableRef) {limit : Nat} {rest : List Token}
    (stops : limit = 0 ∨ LacksAhead .dot rest)
    : table.readMore limit rest = .ok (table, rest) := by
  cases limit with
  | zero => rfl
  | succ limit =>
      obtain ⟨diagnostic, missing⟩ :=
        (stops.resolve_left (Nat.succ_ne_zero limit)).exists_diagnostic
      simp [readMore, missing]

/-- A reference that was read is within the limit and was written in the text, and no dot
follows it that the limit admits.
-/
theorem eq_tokens_append_of_read {tokens rest : List Token} {table : TableRef}
    (taken : read tokens = .ok (table, rest))
    : table.parts.length ≤ maxParts
      ∧ (table.parts.length = maxParts ∨ LacksAhead .dot rest)
      ∧ tokens = table.tokens ++ rest := by
  rw [read] at taken
  split at taken
  · cases taken
  · rename_i first behind firstTaken
    cases below : (single first).readMore (maxParts - 1) behind with
    | error fault =>
        rw [below] at taken
        cases taken
    | ok found =>
        rw [below] at taken
        cases taken
        obtain ⟨more, bounded, stops, rfl, rfl⟩ := exists_more_of_readMore below
        simp only [length_parts, extend, single, maxParts, List.nil_append] at bounded stops ⊢
        exact ⟨by omega, stops.imp_left (congrArg Nat.succ), expect_eq_ok_iff.mp firstTaken⟩

/-- A written reference within the limit is read whatever follows it, and the reading goes on
from there.
-/
theorem read_append (table : TableRef) (rest : List Token)
    (bounded : table.parts.length ≤ maxParts)
    : read (table.tokens ++ rest)
      = (table.readMore (maxParts - table.parts.length) rest).mapError
          (fun (diagnostic, partsRead) => (diagnostic, some partsRead)) := by
  have inLimit : table.more.length ≤ maxParts - 1 := by
    rw [length_parts] at bounded
    omega
  have left : maxParts - table.parts.length = maxParts - 1 - table.more.length := by
    rw [length_parts]
    omega
  have below := readMore_dottedTokens (single table.first) table.more rest inLimit
  rw [tokens, List.cons_append, read, expect_token, left]
  exact congrArg (Except.mapError _) below

/-- A written reference within the limit is read as a whole where no dot follows that the
limit admits.
-/
theorem read_tokens_append (table : TableRef) (rest : List Token)
    (bounded : table.parts.length ≤ maxParts)
    (stops : table.parts.length = maxParts ∨ LacksAhead .dot rest)
    : read (table.tokens ++ rest) = .ok (table, rest) := by
  have stopsHere : maxParts - table.parts.length = 0 ∨ LacksAhead .dot rest :=
    stops.imp_left (fun full => by omega)
  rw [read_append table rest bounded, readMore_of_stops table stopsHere]
  rfl

/-- A written reference with a dot that the limit admits and that no name follows is read up
to that dot.
-/
theorem read_dot (table : TableRef) (dot : TokenOf .dot) (rest : List Token)
    (inLimit : table.parts.length < maxParts) {diagnostic : Diagnostic}
    (missing : expect .identifier rest = .error diagnostic)
    : read (table.tokens ++ dot.token :: rest) = .error (diagnostic, some table) := by
  obtain ⟨left, count⟩ : ∃ left, maxParts - table.parts.length = left + 1 :=
    Nat.exists_eq_add_one.mpr (Nat.sub_pos_of_lt inLimit)
  rw [read_append table _ (Nat.le_of_lt inLimit), count, readMore, expect_token]
  simp only [missing]
  rfl

end TableRef

/-- Splitting identifiers off loses no token, by induction over the list. -/
theorem splitIdentifiers_join (tokens : List Token)
    : (splitIdentifiers tokens).1.map TokenOf.token ++ (splitIdentifiers tokens).2
      = tokens := by
  induction tokens with
  | nil => rfl
  | cons token rest ih =>
      rw [splitIdentifiers]
      split
      · simp [ih]
      · rfl

/-- No identifier is left ahead, by induction over the list. -/
theorem lacksAhead_splitIdentifiers (tokens : List Token)
    : LacksAhead .identifier (splitIdentifiers tokens).2 := by
  induction tokens with
  | nil => exact nofun
  | cons token rest ih =>
      rw [splitIdentifiers]
      split
      · exact ih
      · rename_i other
        simpa [LacksAhead] using other

/-- All identifiers ahead are split off, by induction over them. -/
theorem splitIdentifiers_append (identifiers : List Identifier) (rest : List Token)
    (stops : LacksAhead .identifier rest)
    : splitIdentifiers (identifiers.map TokenOf.token ++ rest) = (identifiers, rest) := by
  induction identifiers with
  | nil =>
      cases rest with
      | nil => rfl
      | cons token behind => exact dif_neg (stops token rfl)
  | cons identifier identifiers ih =>
      rw [List.map_cons, List.cons_append, splitIdentifiers, dif_pos identifier.kind_eq, ih]

end TableQuery
