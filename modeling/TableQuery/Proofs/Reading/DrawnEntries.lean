import TableQuery.Proofs.Reading.SpelledReferences
import TableQuery.Statement.Tree

/-! Entries of drawings.
A name is drawn as it is written and may imitate the lines of a drawing, but it holds no quote,
so the end of every entry is found outside of quotes.  Of a token nothing is hidden but its
place, and the case of its letters if it is a keyword.
-/

namespace TableQuery

-----------------------------------------------------------------------------------------
-- Tokens
-----------------------------------------------------------------------------------------

/-- Two tokens are the same but for their places, and for the case of their letters if they are
keywords.
-/
def Token.Alike (left right : Token) : Prop :=
  left.kind = right.kind
  ∧ match left.kind with
    | .selectKeyword | .fromKeyword =>
        left.lexeme.toList.map Char.toUpper = right.lexeme.toList.map Char.toUpper
    | .identifier | .dot => left.lexeme = right.lexeme

/-- Only identifiers are shown with their lexemes. -/
theorem Token.toList_display (token : Token)
    : token.display.toList
      = match token.kind with
        | .selectKeyword => ['<', 'S', 'E', 'L', 'E', 'C', 'T', '>']
        | .fromKeyword => ['<', 'F', 'R', 'O', 'M', '>']
        | .dot => ['<', 'D', 'O', 'T', '>']
        | .identifier => '<' :: 'I' :: 'D' :: ',' :: ' ' :: (token.lexeme.toList ++ ['>']) := by
  rw [display]
  cases token.kind with
  | selectKeyword | fromKeyword | dot => simp
  | identifier =>
      have joined : s!"<ID, {token.lexeme}>" = "<ID, " ++ token.lexeme ++ ">" := rfl
      simp [joined]

/-- Tokens are shown alike exactly if they are alike, because keywords and dots of a kind have
one spelling in upper case.
-/
theorem Token.display_eq_iff {left right : Token}
    : left.display = right.display ↔ left.Alike right := by
  have leftSpelled := left.recognized
  have rightSpelled := right.recognized
  rw [← String.toList_inj, toList_display, toList_display, Alike]
  cases leftKind : left.kind <;> cases rightKind : right.kind <;>
    simp only [leftKind, rightKind, TokenKind.recognizes, TokenKind.spellsKeyword, beq_iff_eq]
      at leftSpelled rightSpelled
  case identifier.identifier => simp [String.toList_inj]
  case dot.dot => simp [String.toList_inj.mp (leftSpelled.trans rightSpelled.symm)]
  all_goals simp [leftSpelled, rightSpelled]

theorem NodeKind.name_inj {kind other : NodeKind} : kind.name = other.name ↔ kind = other := by
  cases kind <;> cases other <;> simp [NodeKind.name]

/-- No token is shown as a rule, because the names of rules have no angle brackets. -/
theorem Token.display_ne_name (token : Token) (kind : NodeKind) : token.display ≠ kind.name := by
  intro same
  have sameChars := congrArg String.toList same
  rw [toList_display] at sameChars
  cases kind <;> cases isKind : token.kind <;> simp [isKind, NodeKind.name] at sameChars

-----------------------------------------------------------------------------------------
-- Entries in a drawing
-----------------------------------------------------------------------------------------

/-- A text ends outside of quotes and has no line break there; a flag tells whether a quote is
open in front of it.
-/
def EndsEntry : Bool → List Char → Prop
  | quoted, [] => quoted = false
  | quoted, c :: rest => (c = '\n' → quoted) ∧ EndsEntry (quoted ^^ c == quote) rest

section Entries

variable {quoted : Bool} {text other front name rest more : List Char}

/-- The first line break outside of quotes ends an entry, by induction over it. -/
theorem EndsEntry.append_inj (ends : EndsEntry quoted text) (endsToo : EndsEntry quoted other)
    (same : text ++ '\n' :: rest = other ++ '\n' :: more)
    : text = other ∧ rest = more := by
  induction text generalizing quoted other with
  | nil =>
      cases other with
      | nil => exact ⟨rfl, (List.cons.inj same).2⟩
      | cons c behind =>
          have isBreak : '\n' = c := (List.cons.inj same).1
          have isOpen := endsToo.1 isBreak.symm
          rw [EndsEntry] at ends
          simp [ends] at isOpen
  | cons c text ih =>
      cases other with
      | nil =>
          have isBreak : c = '\n' := (List.cons.inj same).1
          have isOpen := ends.1 isBreak
          rw [EndsEntry] at endsToo
          simp [endsToo] at isOpen
      | cons d behind =>
          obtain ⟨rfl, sameBehind⟩ := List.cons.inj same
          obtain ⟨rfl, rfl⟩ := ih ends.2 endsToo.2 sameBehind
          exact ⟨rfl, rfl⟩

/-- What holds neither a quote nor a line break may stand in front of an entry, by induction. -/
theorem endsEntry_append (plain : ∀ c ∈ front, c ≠ '\n' ∧ c ≠ quote)
    : EndsEntry false (front ++ text) ↔ EndsEntry false text := by
  induction front with
  | nil => rfl
  | cons c front ih =>
      obtain ⟨⟨notBreak, notQuote⟩, below⟩ := List.forall_mem_cons.mp plain
      have closed : (c == quote) = false := beq_eq_false_iff_ne.mpr notQuote
      simp [EndsEntry, notBreak, closed, ih below]

/-- A quote closes one that is open, and opens one otherwise. -/
theorem endsEntry_quote_cons : EndsEntry quoted (quote :: text) ↔ EndsEntry (!quoted) text := by
  have notBreak : quote ≠ '\n' := by decide
  simp [EndsEntry, notBreak]

/-- Inside of quotes there may be line breaks, by induction over the name. -/
theorem endsEntry_name_append (unquoted : quote ∉ name)
    : EndsEntry true (name ++ text) ↔ EndsEntry true text := by
  induction name with
  | nil => rfl
  | cons c name ih =>
      obtain ⟨notQuote, below⟩ := not_or.mp (mt List.mem_cons.mpr unquoted)
      have closed : (c == quote) = false := beq_eq_false_iff_ne.mpr (Ne.symm notQuote)
      simp [EndsEntry, closed, ih below]

/-- A quoted name may stand in front of an entry, whatever else it holds. -/
theorem endsEntry_quoted_append (unquoted : quote ∉ name)
    : EndsEntry false (quote :: (name ++ quote :: text)) ↔ EndsEntry false text := by
  rw [endsEntry_quote_cons, Bool.not_false, endsEntry_name_append unquoted,
    endsEntry_quote_cons, Bool.not_true]

theorem endsEntry_of_plain (plain : ∀ c ∈ text, c ≠ '\n' ∧ c ≠ quote)
    : EndsEntry false text := by
  rw [← List.append_nil text, endsEntry_append plain]
  rfl

/-- A token is an entry, because its name holds no quote. -/
theorem Token.endsEntry_display (token : Token) : EndsEntry false token.display.toList := by
  rw [toList_display]
  cases isKind : token.kind with
  | selectKeyword | fromKeyword | dot =>
      apply endsEntry_of_plain
      simp [quote]
  | identifier =>
      let identifier : Identifier := ⟨token, isKind⟩
      have spelled := toList_lexeme identifier
      have inFront : ∀ c ∈ ['<', 'I', 'D', ',', ' '], c ≠ '\n' ∧ c ≠ quote := by
        simp [quote]
      have bracket : EndsEntry false ['>'] := endsEntry_of_plain (by simp [quote])
      have named := (endsEntry_quoted_append (quote_not_mem_name identifier)).mpr bracket
      simpa [identifier, spelled] using (endsEntry_append inFront).mpr named

theorem NodeKind.endsEntry_name (kind : NodeKind) : EndsEntry false kind.name.toList := by
  apply endsEntry_of_plain
  cases kind <;> simp [name, quote]

/-- The entries can be told from the lines of a drawing, by induction over the entries. -/
theorem lines_inj {entries others : List String}
    (ends : ∀ entry ∈ entries, EndsEntry false entry.toList)
    (endsToo : ∀ entry ∈ others, EndsEntry false entry.toList)
    (same : String.join (entries.map (· ++ "\n")) = String.join (others.map (· ++ "\n")))
    : entries = others := by
  have newline : "\n".toList = ['\n'] := by simp
  rw [← String.toList_inj] at same
  simp only [String.toList_join, List.flatMap_map, String.toList_append, newline] at same
  induction entries generalizing others with
  | nil =>
      cases others with
      | nil => rfl
      | cons other others => simp at same
  | cons entry entries ih =>
      cases others with
      | nil => simp at same
      | cons other others =>
          obtain ⟨endsHere, endsBelow⟩ := List.forall_mem_cons.mp ends
          obtain ⟨endsHereToo, endsBelowToo⟩ := List.forall_mem_cons.mp endsToo
          simp only [List.flatMap_cons, List.append_assoc, List.singleton_append] at same
          obtain ⟨sameEntry, sameBelow⟩ := endsHere.append_inj endsHereToo same
          rw [String.toList_inj.mp sameEntry, ih endsBelow endsBelowToo sameBelow]

end Entries

end TableQuery
