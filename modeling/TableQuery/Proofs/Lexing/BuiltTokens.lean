import TableQuery.Proofs.Lexing.LayoutRecognition

/-! Tokens, however they are built.
A lexeme has one kind at most, so a token that is built at a given kind is the one that is
found by trying kinds, in whatever order.  An identifier's name can be cut out of its lexeme
between the quotes, and a lexeme that is a text by itself is read as the token that consists
of it.
-/

namespace TableQuery

-----------------------------------------------------------------------------------------
-- Parts of a text between byte offsets
-----------------------------------------------------------------------------------------

/-- The part of a text between two byte offsets.
There is none if an offset lies behind the end or inside of a character, or if the second one
comes before the first one.
-/
def sliceBytes? (text : String) (start stop : Nat) : Option String := do
  let first ← text.pos? ⟨start⟩
  let last ← text.pos? ⟨stop⟩
  let slice ← text.slice? first last
  return slice.copy

/-- The positions of a text are the offsets between its characters. -/
theorem pos?_eq_some_iff {text : String} {offset : Nat} {position : text.Pos}
    : text.pos? ⟨offset⟩ = some position ↔ position.offset = ⟨offset⟩ := by
  rw [String.pos?, String.Slice.pos?, Option.map_eq_some_iff]
  constructor
  · intro found
    obtain ⟨inSlice, found, rfl⟩ := found
    split at found
    · obtain rfl := Option.some.inj found
      rfl
    · cases found
  · intro same
    have valid : String.Pos.Raw.isValidForSlice text.toSlice ⟨offset⟩ := by
      rw [String.Pos.Raw.isValidForSlice_eq_true_iff,
        String.Pos.Raw.isValidForSlice_toSlice_iff, ← same]
      exact position.isValid
    rw [dif_pos valid]
    exact ⟨_, rfl, String.Pos.ext same.symm⟩

/-- Byte offsets cut out exactly what stands behind a text of the first size and ends a text of
the second size.
-/
theorem sliceBytes?_eq_some_iff {text part : String} {start stop : Nat}
    : sliceBytes? text start stop = some part
      ↔ ∃ front back,
          text = front ++ part ++ back
          ∧ front.utf8ByteSize = start
          ∧ (front ++ part).utf8ByteSize = stop := by
  have opened : sliceBytes? text start stop = some part
      ↔ ∃ first last : text.Pos,
          first.offset = ⟨start⟩
          ∧ last.offset = ⟨stop⟩
          ∧ ∃ ordered, (text.slice first last ordered).copy = part := by
    simp [sliceBytes?, Option.bind_eq_some_iff, pos?_eq_some_iff, String.slice?]
  rw [opened]
  simp only [String.copy_slice_eq_iff_splits]
  constructor
  · intro cut
    obtain ⟨first, last, atStart, atStop, front, back, behind, before⟩ := cut
    refine ⟨front, back, before.eq_append, ?_, ?_⟩
    · have size := behind.offset_eq_rawEndPos
      rw [atStart] at size
      exact (congrArg String.Pos.Raw.byteIdx size).symm
    · have size := before.offset_eq_rawEndPos
      rw [atStop] at size
      exact (congrArg String.Pos.Raw.byteIdx size).symm
  · intro parts
    obtain ⟨front, back, whole, rfl, rfl⟩ := parts
    have regrouped : text = front ++ (part ++ back) := by
      rw [whole, String.append_assoc]
    exact ⟨.ofEqAppend regrouped, .ofEqAppend whole, rfl, rfl, front, back,
      String.Pos.splits_ofEqAppend regrouped, String.Pos.splits_ofEqAppend whole⟩

example
    : sliceBytes? "\"ü\"" 1 3 = some "ü"
      ∧ sliceBytes? "\"ü\"" 1 2 = none
      ∧ sliceBytes? "\"" 1 0 = none := by
  decide

-----------------------------------------------------------------------------------------
-- Names between quotes
-----------------------------------------------------------------------------------------

/-- A name stands between the two quotes of a lexeme.
It is the lexeme without its first and last character, holds no quote itself, and is what the
offsets behind the first byte and in front of the last one cut out.
-/
structure Encloses (lexeme name : String) : Prop where
  spelled : lexeme.toList = quote :: name.toList ++ [quote]
  unquoted : quote ∉ name.toList
  cutOut : sliceBytes? lexeme 1 (lexeme.utf8ByteSize - 1) = some name

/-- What is spelled in quotes lies between byte offsets, because a quote is a single byte. -/
theorem Encloses.of_spelled {lexeme name : String} (unquoted : quote ∉ name.toList)
    (spelled : lexeme.toList = quote :: name.toList ++ [quote])
    : Encloses lexeme name := by
  refine ⟨spelled, unquoted, ?_⟩
  have whole : lexeme = String.singleton quote ++ name ++ String.singleton quote := by
    rw [← String.toList_inj, spelled]
    simp
  have size : (String.singleton quote).utf8ByteSize = 1 := by decide
  refine sliceBytes?_eq_some_iff.mpr ⟨_, _, whole, size, ?_⟩
  rw [whole, String.utf8ByteSize_append (t := String.singleton quote), size,
    Nat.add_sub_cancel]

/-- A token stands for a name exactly if it is an identifier of that name. -/
theorem name?_eq_some_iff {token : Token} {name : String}
    : token.name? = some name
      ↔ ∃ identifier : Identifier, identifier.token = token ∧ identifier.name = name := by
  constructor
  · intro named
    have isIdentifier : token.kind = .identifier :=
      Token.isSome_name?_iff.mp (Option.isSome_of_eq_some named)
    let identifier : Identifier := ⟨token, isIdentifier⟩
    have sameName := identifier.name?_token.symm.trans named
    exact ⟨identifier, rfl, Option.some.inj sameName⟩
  · intro known
    obtain ⟨identifier, rfl, rfl⟩ := known
    exact identifier.name?_token

/-- Every name that a token stands for is enclosed by its lexeme. -/
theorem encloses_of_name? {token : Token} {name : String} (named : token.name? = some name)
    : Encloses token.lexeme name := by
  obtain ⟨identifier, rfl, rfl⟩ := name?_eq_some_iff.mp named
  exact .of_spelled (quote_not_mem_name identifier) (toList_lexeme identifier)

/-- A token is taken as an identifier exactly if it is the token of that identifier. -/
theorem ofToken?_eq_some_iff {token : Token} {identifier : Identifier}
    : Identifier.ofToken? token = some identifier ↔ identifier.token = token := by
  constructor
  · intro taken
    rw [Identifier.ofToken?] at taken
    split at taken
    · obtain rfl := Option.some.inj taken
      rfl
    · cases taken
  · rintro rfl
    exact identifier.ofToken?_token

/-- Exactly the tokens of the kind of identifiers are taken as identifiers, as they are the
ones that stand for a name.
-/
theorem isSome_ofToken?_iff {token : Token}
    : (Identifier.ofToken? token).isSome ↔ token.kind = .identifier := by
  rw [← Token.isSome_name?_iff]
  simp [Option.isSome_iff_exists, Identifier.ofToken?]

-----------------------------------------------------------------------------------------
-- Lexemes by themselves
-----------------------------------------------------------------------------------------

/-- The token where a text consists of nothing but it. -/
def Token.alone (token : Token) : Token :=
  { token with span := {
      start := .first
      stop := Position.first.advance token.lexeme.toList
    }
  }

/-- A lexeme that is a text by itself is read as the token that consists of it: it is a layout
of one lexeme without separators.
-/
theorem tokensOf_lexeme (token : Token) : tokensOf token.lexeme = .ok [token.alone] := by
  let spaced : SpacedLexeme := {
    gap := []
    kind := token.kind
    lexeme := token.lexeme.toList
    separators := by simp
    form := recognizes_iff.mp token.recognized
  }
  let layout : Layout := ⟨[spaced], [], .singleton spaced, by simp⟩
  have whole : layout.text = token.lexeme.toList := by
    simp [layout, Layout.text, spaced, SpacedLexeme.text]
  have read : layout.tokens = [token.alone] := by
    simp [layout, Layout.tokens, SpacedLexeme.tokensFrom, spaced, SpacedLexeme.token,
      SpacedLexeme.text, Token.alone]
  exact tokensOf_eq_ok_iff.mpr ⟨layout, whole, read⟩

/-- No kind recognizes a single quote, because keywords and dots have no quote and quoted names
have two.
-/
theorem not_recognizes_quote (kind : TokenKind)
    : ¬kind.recognizes (String.singleton quote) := by
  cases kind <;> decide

/-- Tokens are the same, however they are built.
A lexeme is recognized by one kind at most, so trying the kinds in any order finds the same
token.  A given kind yields a token exactly if that kind is the one that is found, and then the
same token, which consists of the given lexeme and place.  Exactly the identifiers stand for
names and are taken as identifiers, each with the name that its lexeme encloses.  The offsets of
a name never cross, because no kind recognizes a single quote.  The lexeme of every token is
read as this token alone.
-/
theorem tokens_built_alike
    : (∀ (lexeme : String) (left right : TokenKind),
        left.recognizes lexeme → right.recognizes lexeme → left = right)
      ∧ (∀ order : List TokenKind, (∀ kind, kind ∈ order) → ∀ lexeme span,
          order.findSome? (fun kind => Token.ofKind? kind lexeme span)
            = Token.classify? lexeme span)
      ∧ (∀ kind lexeme span token,
          Token.ofKind? kind lexeme span = some token
            ↔ Token.classify? lexeme span = some token ∧ token.kind = kind)
      ∧ (∀ lexeme span token,
          Token.classify? lexeme span = some token
            ↔ token.lexeme = lexeme ∧ token.span = span)
      ∧ (∀ token : Token, token.name?.isSome ↔ token.kind = .identifier)
      ∧ (∀ (token : Token) (name : String),
          token.name? = some name → Encloses token.lexeme name)
      ∧ (∀ kind : TokenKind, ¬kind.recognizes (String.singleton quote))
      ∧ (∀ token : Token,
          (Identifier.ofToken? token).isSome ↔ token.kind = .identifier)
      ∧ (∀ (token : Token) (identifier : Identifier),
          Identifier.ofToken? token = some identifier
          → identifier.token = token ∧ token.name? = some identifier.name)
      ∧ ∀ token : Token, tokensOf token.lexeme = .ok [token.alone] := by
  refine ⟨fun _ _ _ => TokenKind.eq_of_recognizes, ?_, ?_, fun _ _ _ => classify?_eq_some_iff,
    fun _ => Token.isSome_name?_iff, fun _ _ => encloses_of_name?, not_recognizes_quote,
    fun _ => isSome_ofToken?_iff, ?_, tokensOf_lexeme⟩
  · intro order complete lexeme span
    ext token
    rw [findSome?_ofKind?_eq_some_iff complete, classify?_eq_some_iff]
  · intro kind lexeme span token
    rw [ofKind?_eq_some_iff, classify?_eq_some_iff, and_comm]
  · intro token identifier taken
    have same := ofToken?_eq_some_iff.mp taken
    exact ⟨same, name?_eq_some_iff.mpr ⟨identifier, same, rfl⟩⟩

/-- A keyword and a letter of two bytes between quotes are a name, whichever kind is tried
first.
-/
theorem name_of_quoted_keyword
    : let token : Token := {
        kind := .identifier
        lexeme := "\"FROM ü\""
        span := .endOfInput
        recognized := by decide
      }
      let identifier : Identifier := ⟨token, rfl⟩
      (∀ kind : TokenKind, kind.recognizes token.lexeme → kind = .identifier)
      ∧ [.dot, .fromKeyword, .identifier, .selectKeyword].findSome?
          (fun kind => Token.ofKind? kind token.lexeme token.span) = some token
      ∧ Encloses token.lexeme "FROM ü"
      ∧ Identifier.ofToken? token = some identifier
      ∧ identifier.name = "FROM ü" := by
  intro token identifier
  obtain ⟨oneKind, anyOrder, _, classified, _, encloses, _, _, taken, _⟩ := tokens_built_alike
  have named : token.name? = some "FROM ü" := by decide
  have isTaken : Identifier.ofToken? token = some identifier := by decide
  refine ⟨?_, ?_, encloses token _ named, isTaken, ?_⟩
  · exact fun kind recognized => oneKind _ kind .identifier recognized token.recognized
  · rw [anyOrder _ (by intro kind; cases kind <;> decide)]
    exact (classified _ _ _).mpr ⟨rfl, rfl⟩
  · exact Option.some.inj ((taken token identifier isTaken).2.symm.trans named)

end TableQuery
