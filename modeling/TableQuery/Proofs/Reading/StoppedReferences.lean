import TableQuery.Proofs.Reading.StatementGrammar

/-! Readings that stop inside the table reference.
A name is missing there, either the first one or the one behind a dot, and what was read before
it is kept.  Where nothing but the end of the tokens is in the way, all of them were read.
-/

namespace TableQuery

namespace TableRef

/-- Further names are read up to a dot within the limit that no name follows, by induction on
the limit.
-/
theorem exists_dot_of_readMore {table partsRead : TableRef} {limit : Nat}
    {tokens : List Token} {diagnostic : Diagnostic}
    (stopped : table.readMore limit tokens = .error (diagnostic, partsRead))
    : ∃ more, ∃ dot : TokenOf .dot, ∃ rest,
        more.length < limit
        ∧ partsRead = table.extend more
        ∧ tokens = dottedTokens more ++ dot.token :: rest
        ∧ expect .identifier rest = .error diagnostic := by
  induction limit generalizing table tokens with
  | zero => cases stopped
  | succ limit ih =>
      rw [readMore] at stopped
      split at stopped
      · cases stopped
      · rename_i dot afterDot dotTaken
        have ahead := expect_eq_ok_iff.mp dotTaken
        split at stopped
        · rename_i fault missing
          cases stopped
          exact ⟨[], dot, afterDot, Nat.succ_pos limit, by simp, ahead, missing⟩
        · rename_i part afterPart partTaken
          obtain ⟨more, last, rest, inLimit, rfl, rfl, missing⟩ := ih stopped
          refine ⟨⟨dot, part⟩ :: more, last, rest, Nat.succ_lt_succ inLimit, ?_, ?_, missing⟩
          · exact push_extend table ⟨dot, part⟩ more
          · rw [ahead, expect_eq_ok_iff.mp partTaken]
            rfl

/-- A reference is read up to its first name, or up to a dot within the limit that no name
follows.
-/
theorem exists_missing_of_read {tokens : List Token} {diagnostic : Diagnostic}
    {partsRead : Option TableRef} (stopped : read tokens = .error (diagnostic, partsRead))
    : partsRead = none ∧ expect .identifier tokens = .error diagnostic
      ∨ ∃ table, ∃ dot : TokenOf .dot, ∃ rest,
          table.parts.length < maxParts
          ∧ partsRead = some table
          ∧ tokens = table.tokens ++ dot.token :: rest
          ∧ expect .identifier rest = .error diagnostic := by
  rw [read] at stopped
  split at stopped
  · rename_i fault missing
    cases stopped
    exact Or.inl ⟨rfl, missing⟩
  · rename_i first behind firstTaken
    cases below : (single first).readMore (maxParts - 1) behind with
    | ok found =>
        rw [below] at stopped
        cases stopped
    | error fault =>
        rw [below] at stopped
        cases stopped
        obtain ⟨more, dot, rest, inLimit, same, rfl, missing⟩ := exists_dot_of_readMore below
        refine Or.inr ⟨fault.2, dot, rest, ?_, rfl, ?_, missing⟩
        · rw [same]
          simp only [length_parts, extend, single, maxParts, List.nil_append] at inLimit ⊢
          omega
        · rw [expect_eq_ok_iff.mp firstTaken, same]
          rfl

end TableRef

/-- A statement stops in its table reference as that reference does, behind the keyword. -/
theorem Statement.exists_read_of_table {tokens : List Token} {partsRead : Option TableRef}
    (stopped : (Statement.read tokens).progress = .table partsRead)
    : ∃ keyword : TokenOf .fromKeyword, ∃ behind diagnostic,
        tokens = keyword.token :: behind
        ∧ TableRef.read behind = .error (diagnostic, partsRead)
        ∧ (Statement.read tokens).result = .error diagnostic := by
  rw [Statement.read] at stopped ⊢
  split at stopped
  · cases stopped
  · rename_i keyword behind keywordTaken
    split at stopped
    · rename_i diagnostic parts failed
      cases stopped
      exact ⟨keyword, behind, diagnostic, expect_eq_ok_iff.mp keywordTaken, failed, rfl⟩
    · split at stopped
      · cases stopped
      · split at stopped
        · cases stopped
        · cases stopped

/-- Where only the end of the tokens is in the way of a name, there are no more tokens: each
token has a place of its own.
-/
theorem eq_nil_of_isUnexpectedEnd {kind : TokenKind} {tokens : List Token}
    {diagnostic : Diagnostic} (missing : expect kind tokens = .error diagnostic)
    (ended : diagnostic.isUnexpectedEnd)
    (placed : ∀ token ∈ tokens, token.span ≠ Span.endOfInput)
    : tokens = [] := by
  cases tokens with
  | nil => rfl
  | cons token rest =>
      rw [expect] at missing
      split at missing
      · cases missing
      · cases missing
        have atEnd : token.span = Span.endOfInput := by
          simpa [Diagnostic.isUnexpectedEnd, Diagnostic.span?, Diagnostic.stage] using ended
        exact absurd atEnd (placed token List.mem_cons_self)

/-- A reading that lacks only more tokens and stops in the table reference has read all names
of the tokens.
-/
theorem Statement.names_of_stopped {tokens : List Token} {partsRead : Option TableRef}
    {diagnostic : Diagnostic} (stopped : (Statement.read tokens).progress = .table partsRead)
    (rejected : (Statement.read tokens).result = .error diagnostic)
    (ended : diagnostic.isUnexpectedEnd)
    (placed : ∀ token ∈ tokens, token.span ≠ Span.endOfInput)
    : partsRead.elim [] TableRef.names = tokens.filterMap Token.name? := by
  obtain ⟨keyword, behind, fault, rfl, failed, same⟩ := Statement.exists_read_of_table stopped
  obtain rfl : fault = diagnostic := Except.error.inj (same.symm.trans rejected)
  rw [List.forall_mem_cons] at placed
  rcases TableRef.exists_missing_of_read failed with
    ⟨rfl, missing⟩ | ⟨table, dot, rest, _, rfl, rfl, missing⟩
  · rw [eq_nil_of_isUnexpectedEnd missing ended placed.2]
    simp [name?_eq_none keyword (by decide)]
  · have placedBehind := (List.forall_mem_append.mp placed.2).2
    rw [List.forall_mem_cons] at placedBehind
    rw [eq_nil_of_isUnexpectedEnd missing ended placedBehind.2]
    have inClause := (FromClause.mk keyword table).filterMap_name?_tokens
    rw [← List.cons_append, List.filterMap_append]
    simp [name?_eq_none dot (by decide), ← inClause, FromClause.tokens]

end TableQuery
