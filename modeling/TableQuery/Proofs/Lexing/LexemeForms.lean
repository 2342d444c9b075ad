import Mathlib.Data.List.Forall2
import TableQuery.Lexer

/-! The written forms of lexemes, without the tests that recognize them.
Every kind recognizes exactly its form, and no text has the forms of two kinds, so the order
in which kinds are tried never decides.
-/

namespace TableQuery

/-- A word spells an upper-case keyword with each letter in either case. -/
def SpelledInAnyCase (keyword word : List Char) : Prop :=
  List.Forall₂ (fun c letter => c = letter ∨ c = letter.toLower) word keyword

/-- What the lexemes of a kind look like. -/
inductive LexemeForm : TokenKind → List Char → Prop
  | selectKeyword {word} (spelled : SpelledInAnyCase ['S', 'E', 'L', 'E', 'C', 'T'] word)
    : LexemeForm .selectKeyword word
  | fromKeyword {word} (spelled : SpelledInAnyCase ['F', 'R', 'O', 'M'] word)
    : LexemeForm .fromKeyword word
  | identifier {name} (unquoted : quote ∉ name)
    : LexemeForm .identifier (quote :: name ++ [quote])
  | dot : LexemeForm .dot ['.']

/-- An identifier is a name in quotes. -/
theorem LexemeForm.exists_name {lexeme : List Char} (form : LexemeForm .identifier lexeme)
    : ∃ name, quote ∉ name ∧ lexeme = quote :: name ++ [quote] := by
  cases form with
  | @identifier name unquoted => exact ⟨name, unquoted, rfl⟩

/-- Raising a character's case gives an upper-case letter only from that letter's two
spellings.  Witness: the code points of the cases are 32 apart.
-/
theorem toUpper_eq_iff {c letter : Char} (upper : letter.isUpper)
    : c.toUpper = letter ↔ c = letter ∨ c = letter.toLower := by
  have bounds : 65 ≤ letter.toNat ∧ letter.toNat ≤ 90 := by
    delta Char.isUpper at upper
    simpa [UInt32.le_iff_toNat_le] using upper
  have lowered : letter.toLower.toNat = letter.toNat + 32 := by
    have gap : ('a'.val - 'A'.val).toNat = 32 := by decide
    delta Char.toLower
    rw [dif_pos (by simpa [UInt32.le_iff_toNat_le] using bounds),
      ← Char.toNat_val, UInt32.toNat_add, gap, Char.toNat_val]
    omega
  have same (left right : Char) : left = right ↔ left.toNat = right.toNat := by
    simp [Char.ext_iff, ← UInt32.toNat_inj]
  rw [same, same, same, lowered]
  delta Char.toUpper
  by_cases lower : 97 ≤ c.toNat ∧ c.toNat ≤ 122
  · have gap : ('A'.val - 'a'.val).toNat = 2 ^ 32 - 32 := by decide
    rw [dif_pos (by simpa [UInt32.le_iff_toNat_le] using lower),
      ← Char.toNat_val, UInt32.toNat_add, gap, Char.toNat_val]
    omega
  · rw [dif_neg (by simpa [UInt32.le_iff_toNat_le] using lower)]
    omega

/-- The keyword test accepts exactly the spellings in any case, by induction on the
keyword.
-/
theorem spellsKeyword_iff {keyword word : List Char} (upper : keyword.all Char.isUpper)
    : TokenKind.spellsKeyword keyword word ↔ SpelledInAnyCase keyword word := by
  rw [List.all_eq_true] at upper
  simp only [TokenKind.spellsKeyword, SpelledInAnyCase, beq_iff_eq]
  induction keyword generalizing word with
  | nil => simp
  | cons letter letters ih =>
      cases word with
      | nil => simp
      | cons c rest =>
          simp only [List.map_cons, List.cons.injEq, List.forall₂_cons]
          exact and_congr (toUpper_eq_iff (upper letter (by simp)))
            (ih (fun other member => upper other (List.mem_cons_of_mem letter member)))

/-- The test for quoted names accepts exactly a quote, a name without quotes and a quote. -/
theorem isQuotedName_iff {lexeme : List Char}
    : TokenKind.isQuotedName lexeme
      ↔ ∃ name, quote ∉ name ∧ lexeme = quote :: name ++ [quote] := by
  constructor
  · intro quoted
    match lexeme with
    | [] => simp [TokenKind.isQuotedName] at quoted
    | first :: rest =>
        rw [TokenKind.isQuotedName.eq_def] at quoted
        split at quoted
        · rename_i behind opened
          obtain ⟨rfl, rfl⟩ := List.cons.inj opened
          simp only [Bool.and_eq_true, beq_iff_eq, Bool.not_eq_true', List.contains_eq_mem,
            decide_eq_false_iff_not] at quoted
          refine ⟨rest.dropLast, quoted.2, ?_⟩
          rw [List.cons_append, List.dropLast_append_getLast? quote quoted.1]
        · cases quoted
  · intro quotedName
    obtain ⟨name, unquoted, rfl⟩ := quotedName
    simp [TokenKind.isQuotedName, unquoted]

/-- Every kind recognizes exactly the lexemes of its form. -/
theorem recognizes_iff {kind : TokenKind} {lexeme : String}
    : kind.recognizes lexeme ↔ LexemeForm kind lexeme.toList := by
  cases kind with
  | selectKeyword =>
      rw [TokenKind.recognizes, spellsKeyword_iff (by decide)]
      exact ⟨.selectKeyword, fun | .selectKeyword spelled => spelled⟩
  | fromKeyword =>
      rw [TokenKind.recognizes, spellsKeyword_iff (by decide)]
      exact ⟨.fromKeyword, fun | .fromKeyword spelled => spelled⟩
  | identifier =>
      rw [TokenKind.recognizes, isQuotedName_iff]
      constructor
      · intro quotedName
        obtain ⟨name, unquoted, same⟩ := quotedName
        exact same ▸ .identifier unquoted
      · intro form
        generalize lexeme.toList = chars at form
        cases form with
        | identifier unquoted => exact ⟨_, unquoted, rfl⟩
  | dot =>
      rw [TokenKind.recognizes, beq_iff_eq]
      constructor
      · intro same
        exact same ▸ .dot
      · intro form
        generalize lexeme.toList = chars at form
        cases form with
        | dot => rfl

/-- The characters that the lexemes of a kind may begin with. -/
def TokenKind.initials : TokenKind → List Char
  | .selectKeyword => ['S', 's']
  | .fromKeyword => ['F', 'f']
  | .identifier => [quote]
  | .dot => ['.']

/-- A lexeme begins with an initial of its kind. -/
theorem LexemeForm.exists_initial {kind : TokenKind} {lexeme : List Char}
    (form : LexemeForm kind lexeme)
    : ∃ first ∈ kind.initials, ∃ rest, lexeme = first :: rest := by
  cases form with
  | selectKeyword spelled | fromKeyword spelled =>
      obtain ⟨first, rest, letter, _, rfl⟩ := List.forall₂_cons_right_iff.mp spelled
      exact ⟨first, by simpa [TokenKind.initials] using letter, rest, rfl⟩
  | identifier => exact ⟨quote, by simp [TokenKind.initials], _, rfl⟩
  | dot => exact ⟨'.', by simp [TokenKind.initials], _, rfl⟩

/-- No lexeme begins with a separator, because no initial is one. -/
theorem TokenKind.not_separator_of_initial {kind : TokenKind} {first : Char}
    (initial : first ∈ kind.initials)
    : isSeparator first = false := by
  have none : kind.initials.all (fun c => !isSeparator c) := by
    cases kind <;> decide
  simpa using List.all_eq_true.mp none first initial

/-- Two kinds share no initial. -/
theorem TokenKind.eq_of_initial {left right : TokenKind} {first : Char}
    (leftInitial : first ∈ left.initials) (rightInitial : first ∈ right.initials)
    : left = right := by
  have disjoint : left = right ∨ left.initials.all (fun c => !right.initials.contains c) := by
    cases left <;> cases right <;> decide
  rcases disjoint with same | apart
  · exact same
  · simpa [rightInitial] using List.all_eq_true.mp apart first leftInitial

/-- A lexeme has one kind only, because its first character is an initial of that kind. -/
theorem LexemeForm.kind_unique {left right : TokenKind} {lexeme : List Char}
    (leftForm : LexemeForm left lexeme) (rightForm : LexemeForm right lexeme)
    : left = right := by
  obtain ⟨first, leftInitial, rest, rfl⟩ := leftForm.exists_initial
  obtain ⟨other, rightInitial, behind, same⟩ := rightForm.exists_initial
  obtain ⟨rfl, rfl⟩ := List.cons.inj same
  exact TokenKind.eq_of_initial leftInitial rightInitial

/-- Two kinds that recognize one lexeme are the same, because it has the form of both. -/
theorem TokenKind.eq_of_recognizes {left right : TokenKind} {lexeme : String}
    (byLeft : left.recognizes lexeme) (byRight : right.recognizes lexeme)
    : left = right :=
  (recognizes_iff.mp byLeft).kind_unique (recognizes_iff.mp byRight)

/-- The lexeme of a token decides its kind. -/
theorem kind_eq_of_lexeme {left right : Token} (same : left.lexeme = right.lexeme)
    : left.kind = right.kind :=
  TokenKind.eq_of_recognizes left.recognized (same ▸ right.recognized)

/-- Building a token at a kind yields the token of that kind with the given parts. -/
theorem ofKind?_eq_some_iff {kind : TokenKind} {lexeme : String} {span : Span} {token : Token}
    : Token.ofKind? kind lexeme span = some token
      ↔ token.kind = kind ∧ token.lexeme = lexeme ∧ token.span = span := by
  rw [Token.ofKind?]
  constructor
  · intro built
    split at built
    · obtain rfl := Option.some.inj built
      exact ⟨rfl, rfl, rfl⟩
    · cases built
  · intro parts
    obtain ⟨rfl, rfl, rfl⟩ := parts
    exact dif_pos token.recognized

theorem TokenKind.mem_priority (kind : TokenKind) : kind ∈ priority := by
  cases kind <;> decide

/-- Trying kinds on a lexeme yields exactly the token that consists of it, whatever its kind:
the order of the kinds does not matter because a lexeme has one kind only.
-/
theorem findSome?_ofKind?_eq_some_iff {order : List TokenKind}
    (complete : ∀ kind, kind ∈ order) {lexeme : String} {span : Span} {token : Token}
    : order.findSome? (fun kind => Token.ofKind? kind lexeme span) = some token
      ↔ token.lexeme = lexeme ∧ token.span = span := by
  constructor
  · intro found
    obtain ⟨kind, _, built⟩ := List.exists_of_findSome?_eq_some found
    exact (ofKind?_eq_some_iff.mp built).2
  · intro parts
    obtain ⟨rfl, rfl⟩ := parts
    -- Some kind is found because the token's own kind is tried, and it is no other kind.
    have built : (Token.ofKind? token.kind token.lexeme token.span).isSome :=
      Option.isSome_of_eq_some (ofKind?_eq_some_iff.mpr ⟨rfl, rfl, rfl⟩)
    have anyFound : (order.findSome?
        (fun kind => Token.ofKind? kind token.lexeme token.span)).isSome :=
      List.findSome?_isSome_iff.mpr ⟨token.kind, complete token.kind, built⟩
    obtain ⟨other, found⟩ := Option.isSome_iff_exists.mp anyFound
    obtain ⟨kind, _, otherBuilt⟩ := List.exists_of_findSome?_eq_some found
    obtain ⟨rfl, sameLexeme, sameSpan⟩ := ofKind?_eq_some_iff.mp otherBuilt
    rw [found, Token.ext (kind_eq_of_lexeme sameLexeme) sameLexeme sameSpan]

/-- Classifying a lexeme yields exactly the token that consists of it, because it tries every
kind.
-/
theorem classify?_eq_some_iff {lexeme : String} {span : Span} {token : Token}
    : Token.classify? lexeme span = some token
      ↔ token.lexeme = lexeme ∧ token.span = span :=
  findSome?_ofKind?_eq_some_iff TokenKind.mem_priority

/-- An identifier spells its name in quotes. -/
theorem toList_lexeme (identifier : Identifier)
    : identifier.token.lexeme.toList = quote :: identifier.name.toList ++ [quote] := by
  have form := recognizes_iff.mp identifier.token.recognized
  rw [identifier.kind_eq] at form
  obtain ⟨name, _, spelled⟩ := form.exists_name
  rw [TokenOf.name, Token.unquote, String.toList_ofList, spelled]
  simp

/-- No identifier stands for a name with a quote. -/
theorem quote_not_mem_name (identifier : Identifier) : quote ∉ identifier.name.toList := by
  have form := recognizes_iff.mp identifier.token.recognized
  rw [identifier.kind_eq] at form
  obtain ⟨name, unquoted, spelled⟩ := form.exists_name
  simpa [TokenOf.name, Token.unquote, spelled] using unquoted

/-- A character that neither ends a word nor opens a name. -/
def IsPlain (c : Char) : Prop :=
  c ≠ quote ∧ c ≠ '.' ∧ isSeparator c = false

instance (c : Char) : Decidable (IsPlain c) :=
  inferInstanceAs (Decidable (_ ∧ _ ∧ _))

/-- The characters of a spelled keyword are plain if its letters are in either case. -/
theorem SpelledInAnyCase.isPlain {keyword word : List Char}
    (spelled : SpelledInAnyCase keyword word)
    (letters : keyword.all (fun letter => IsPlain letter ∧ IsPlain letter.toLower))
    : ∀ c ∈ word, IsPlain c := by
  simp only [List.all_eq_true, decide_eq_true_eq] at letters
  induction spelled with
  | nil => simp
  | cons either _ ih =>
      intro c member
      obtain ⟨upper, lower⟩ := letters _ List.mem_cons_self
      rcases List.mem_cons.mp member with rfl | later
      · rcases either with rfl | rfl
        · exact upper
        · exact lower
      · exact ih (fun letter below => letters letter (List.mem_cons_of_mem _ below)) c later

/-- The quotes of a lexeme come in pairs: keywords and dots have none and a quoted name has
two.
-/
theorem LexemeForm.hasOpenQuote_eq_false {kind : TokenKind} {lexeme : List Char}
    (form : LexemeForm kind lexeme)
    : hasOpenQuote lexeme = false := by
  have none (word : List Char) (plain : ∀ c ∈ word, IsPlain c)
      : hasOpenQuote word = false := by
    have absent : quote ∉ word := fun member => (plain quote member).1 rfl
    simp [hasOpenQuote, List.count_eq_zero_of_not_mem absent]
  cases form with
  | selectKeyword spelled => exact none _ (spelled.isPlain (by decide))
  | fromKeyword spelled => exact none _ (spelled.isPlain (by decide))
  | identifier unquoted => simp [hasOpenQuote, List.count_eq_zero_of_not_mem unquoted]
  | dot => rfl

/-- No lexeme ends in a separator: keywords hold none, and the others end in a quote or in a
dot.
-/
theorem LexemeForm.exists_last {kind : TokenKind} {lexeme : List Char}
    (form : LexemeForm kind lexeme)
    : ∃ front last, lexeme = front ++ [last] ∧ isSeparator last = false := by
  have ofPlain (plain : ∀ c ∈ lexeme, IsPlain c)
      : ∃ front last, lexeme = front ++ [last] ∧ isSeparator last = false := by
    obtain ⟨first, _, rest, begins⟩ := form.exists_initial
    have notEmpty : lexeme ≠ [] := begins ▸ List.cons_ne_nil first rest
    exact ⟨lexeme.dropLast, lexeme.getLast notEmpty,
      (List.dropLast_append_getLast notEmpty).symm,
      (plain _ (List.getLast_mem notEmpty)).2.2⟩
  cases form with
  | selectKeyword spelled => exact ofPlain (spelled.isPlain (by decide))
  | fromKeyword spelled => exact ofPlain (spelled.isPlain (by decide))
  | @identifier name unquoted => exact ⟨quote :: name, quote, rfl, by decide⟩
  | dot => exact ⟨[], '.', rfl, by decide⟩

end TableQuery
