import Mathlib.Data.List.Nodup
import TableQuery.Proofs.Answers.MovedAnswers
import TableQuery.Proofs.Catalogs.Qualification

/-! The layout of a text never changes what the text means.
The tokens of two texts with the same lexemes are the same tokens at other places, so both
texts are answered alike, and their diagnostics point at the same tokens.
-/

namespace TableQuery

-----------------------------------------------------------------------------------------
-- Corresponding results
-----------------------------------------------------------------------------------------

/-- A span reaches from where one token starts to where another one stops that is not in front
of it, both given by their indices.
-/
structure Span.OfTokens (tokens : List Token) (first last : Nat) (span : Span) : Prop where
  ordered : first ≤ last
  found
    : ∃ left right,
        tokens[first]? = some left
        ∧ tokens[last]? = some right
        ∧ span = { start := left.span.start, stop := right.span.stop }

/-- Two diagnostics point at no place at all, at the end of input, or at the tokens of the same
indices in two token lists.
-/
inductive SamePlace (left right : List Token) : Option Span → Option Span → Prop
  | absent : SamePlace left right none none
  | atEnd : SamePlace left right (some Span.endOfInput) (some Span.endOfInput)
  | atTokens {first last leftSpan rightSpan} (inLeft : leftSpan.OfTokens left first last)
    (inRight : rightSpan.OfTokens right first last)
    : SamePlace left right (some leftSpan) (some rightSpan)

/-- Two texts with the given tokens have the same result, or are rejected in the same stage
with the same message at the same place.
-/
inductive SameResult {α : Type} (left right : List Token)
    : Except Diagnostic α → Except Diagnostic α → Prop
  | ok (value) : SameResult left right (.ok value) (.ok value)
  | error {leftFault rightFault} (stage : leftFault.stage = rightFault.stage)
    (message : leftFault.message = rightFault.message)
    (place : SamePlace left right leftFault.span? rightFault.span?)
    : SameResult left right (.error leftFault) (.error rightFault)

namespace Span.OfTokens

variable {tokens : List Token} {first last : Nat} {span : Span}

/-- The span of a token is that of a range of one token. -/
theorem exists_of_mem {token : Token} (member : token ∈ tokens)
    : ∃ index, token.span.OfTokens tokens index index := by
  obtain ⟨index, found⟩ := List.getElem?_of_mem member
  exact ⟨index, Nat.le_refl index, token, token, found, found, rfl⟩

/-- The span of a reference is that of the range of its tokens. -/
theorem exists_of_opens {clause : FromClause} (opens : clause.Opens tokens)
    (inOrder : TokensInOrder tokens)
    : ∃ first last, clause.table.span.OfTokens tokens first last := by
  obtain ⟨front, back, split⟩ := opens.exists_table
  obtain ⟨last, _, isLast⟩ := clause.table.exists_last
  have notEmpty : 0 < clause.table.tokens.length := by simp [TableRef.tokens]
  refine ⟨front.length, front.length + (clause.table.tokens.length - 1), by omega,
    clause.table.first.token, last.token, ?_, ?_,
    TableRef.span_eq (inOrder.sublist opens.sublist) isLast⟩
  · simp [split, TableRef.tokens]
  · rw [split, List.append_assoc, List.getElem?_append_right (by omega),
      Nat.add_sub_cancel_left, List.getElem?_append_left (by omega),
      ← List.getLast?_eq_getElem?]
    exact isLast

/-- A span moves along with the tokens that it is made of. -/
theorem map (ofTokens : span.OfTokens tokens first last) (places : Respacing)
    : (places.span span).OfTokens (tokens.map places.token) first last := by
  obtain ⟨left, right, isLeft, isRight, rfl⟩ := ofTokens.found
  exact ⟨ofTokens.ordered, places.token left, places.token right, by simp [isLeft],
    by simp [isRight], rfl⟩

end Span.OfTokens

/-- What arises from tokens points at the same place when they are moved. -/
theorem Diagnostic.ArisesFrom.samePlace {tokens : List Token} {diagnostic : Diagnostic}
    (arises : diagnostic.ArisesFrom tokens) (inOrder : TokensInOrder tokens)
    (places : Respacing)
    : SamePlace tokens (tokens.map places.token) diagnostic.span?
        (places.diagnostic diagnostic).span? := by
  cases arises with
  | ended expected => exact .atEnd
  | missingRows path => exact .absent
  | unexpected expected member =>
      obtain ⟨index, ofTokens⟩ := Span.OfTokens.exists_of_mem member
      exact .atTokens ofTokens (ofTokens.map places)
  | unknown member named =>
      obtain ⟨index, ofTokens⟩ := Span.OfTokens.exists_of_mem member
      exact .atTokens ofTokens (ofTokens.map places)
  | ambiguous opens named =>
      obtain ⟨first, last, ofTokens⟩ := Span.OfTokens.exists_of_opens opens inOrder
      exact .atTokens ofTokens (ofTokens.map places)

/-- A result and the one with moved diagnostics are the same, if the diagnostics arise from the
tokens.
-/
theorem sameResult_mapError {α : Type} {tokens : List Token} {result : Except Diagnostic α}
    (arises : ∀ diagnostic, result = .error diagnostic → diagnostic.ArisesFrom tokens)
    (inOrder : TokensInOrder tokens) (places : Respacing)
    : SameResult tokens (tokens.map places.token) result
        (result.mapError places.diagnostic) := by
  cases result with
  | ok value => exact .ok value
  | error diagnostic =>
      exact .error (places.stage_diagnostic diagnostic).symm
        (places.message_diagnostic diagnostic).symm
        ((arises diagnostic rfl).samePlace inOrder places)

-----------------------------------------------------------------------------------------
-- Texts with the same lexemes
-----------------------------------------------------------------------------------------

/-- Some function leads from each item of a list to the one of the same index in another list,
because no item occurs twice.
-/
theorem exists_map_eq {α : Type} {left right : List α} (distinct : left.Nodup)
    (sameLength : left.length = right.length)
    : ∃ change : α → α, left.map change = right := by
  let target (index : Fin left.length) : α := right.get (index.cast sameLength)
  refine ⟨Function.extend left.get target id, ?_⟩
  have injective := List.nodup_iff_injective_get.mp distinct
  apply List.ext_get (by simpa using sameLength)
  intro index inLeft inRight
  have inItems : index < left.length := by simpa using inLeft
  simpa [target] using injective.extend_apply target id ⟨index, inItems⟩

namespace TokensInOrder

variable {tokens : List Token} (inOrder : TokensInOrder tokens)
include inOrder

/-- No two tokens in order start at the same place. -/
theorem nodup_starts : (tokens.map (·.span.start)).Nodup := by
  refine List.pairwise_map.mpr (inOrder.ordered.imp_of_mem ?_)
  intro left right inLeft _ before
  exact ((inOrder.forward left inLeft).trans_le before).ne

/-- No two tokens in order stop at the same place. -/
theorem nodup_stops : (tokens.map (·.span.stop)).Nodup := by
  refine List.pairwise_map.mpr (inOrder.ordered.imp_of_mem ?_)
  intro left right _ inRight before
  exact (before.trans_lt (inOrder.forward right inRight)).ne

end TokensInOrder

/-- Tokens in order with the same lexemes are the same tokens at other places. -/
theorem exists_respacing {left right : List Token}
    (sameLexemes : left.map Token.lexeme = right.map Token.lexeme)
    (inOrder : TokensInOrder left)
    : ∃ places : Respacing, left.map places.token = right := by
  have sameLength : left.length = right.length := by
    simpa using congrArg List.length sameLexemes
  obtain ⟨start, starts⟩ : ∃ start : Position → Position,
      (left.map (·.span.start)).map start = right.map (·.span.start) :=
    exists_map_eq inOrder.nodup_starts (by simpa using sameLength)
  obtain ⟨stop, stops⟩ : ∃ stop : Position → Position,
      (left.map (·.span.stop)).map stop = right.map (·.span.stop) :=
    exists_map_eq inOrder.nodup_stops (by simpa using sameLength)
  refine ⟨⟨start, stop⟩, List.ext_getElem (by simpa using sameLength) ?_⟩
  intro index inLeft inRight
  have inTokens : index < left.length := by simpa using inLeft
  have sameLexeme : left[index].lexeme = right[index].lexeme := by
    have same := List.getElem_of_eq sameLexemes (by simpa using inTokens)
    rwa [List.getElem_map, List.getElem_map] at same
  have sameStart : start left[index].span.start = right[index].span.start := by
    simpa using List.getElem_of_eq starts (by simpa using inTokens)
  have sameStop : stop left[index].span.stop = right[index].span.stop := by
    simpa using List.getElem_of_eq stops (by simpa using inTokens)
  rw [List.getElem_map]
  exact Token.ext (kind_eq_of_lexeme sameLexeme) sameLexeme (Span.ext sameStart sameStop)

/-- The tokens of two texts with the same lexemes are the same tokens at other places, which
fit them.
-/
theorem exists_fits_of_tokensOf {left right : String} {leftTokens rightTokens : List Token}
    (leftRead : tokensOf left = .ok leftTokens) (rightRead : tokensOf right = .ok rightTokens)
    (sameLexemes : leftTokens.map Token.lexeme = rightTokens.map Token.lexeme)
    : ∃ places : Respacing,
        leftTokens.map places.token = rightTokens ∧ places.Fits leftTokens := by
  have inOrder := tokensInOrder_of_tokensOf leftRead
  obtain ⟨places, rfl⟩ := exists_respacing sameLexemes inOrder
  refine ⟨places, rfl, {
    inOrder
    inOrderMoved := tokensInOrder_of_tokensOf rightRead
    placed := span_ne_endOfInput_of_tokensOf leftRead
    placedMoved := ?_
  }⟩
  intro token member
  exact span_ne_endOfInput_of_tokensOf rightRead (places.token token)
    (List.mem_map_of_mem member)

-----------------------------------------------------------------------------------------
-- Texts that are completed
-----------------------------------------------------------------------------------------

/-- No name is open behind the tokens of a text. -/
theorem hasOpenQuote_of_tokensOf {text : String} {tokens : List Token}
    (read : tokensOf text = .ok tokens)
    : hasOpenQuote text.toList = false := by
  obtain ⟨layout, whole, _⟩ := tokensOf_eq_ok_iff.mp read
  rw [← whole]
  exact hasOpenQuote_spell layout.lexemes layout.blank

namespace Catalog

variable {catalog : Catalog} {text : String} {tokens : List Token}

/-- Behind a text that is read as tokens no name is open. -/
theorem suggest_of_tokensOf (read : tokensOf text = .ok tokens)
    : catalog.suggest text = catalog.suggestBehind tokens [] := by
  rw [suggest_eq_bind (.closed (hasOpenQuote_of_tokensOf read)), String.ofList_toList, read]
  rfl

/-- Behind a quote that is put behind such a text a name is open. -/
theorem suggest_openName_of_tokensOf (read : tokensOf text = .ok tokens) {openName : String}
    (unquoted : quote ∉ openName.toList)
    : catalog.suggest (text ++ "\"" ++ openName)
      = catalog.suggestBehind tokens openName.toList := by
  have whole : (text ++ "\"" ++ openName).toList
      = text.toList ++ quote :: openName.toList := by
    simp
  rw [suggest_eq_bind (.opened whole (hasOpenQuote_of_tokensOf read) unquoted),
    String.ofList_toList, read]
  rfl

end Catalog

/-- Layout never changes meaning.
Two texts whose tokens have the same lexemes are answered alike: with the same rows, or with
diagnostics of the same stage and message that point at the same tokens.  So are suggestions
for both of them, also where each is followed by the same name that is still open.
-/
theorem layout_never_changes_meaning {catalog : Catalog} {left right : String}
    {leftTokens rightTokens : List Token} (leftRead : tokensOf left = .ok leftTokens)
    (rightRead : tokensOf right = .ok rightTokens)
    (sameLexemes : leftTokens.map Token.lexeme = rightTokens.map Token.lexeme)
    : SameResult leftTokens rightTokens (catalog.execute left) (catalog.execute right)
      ∧ SameResult leftTokens rightTokens (catalog.suggest left) (catalog.suggest right)
      ∧ ∀ openName : String,
          quote ∉ openName.toList
          → SameResult leftTokens rightTokens (catalog.suggest (left ++ "\"" ++ openName))
              (catalog.suggest (right ++ "\"" ++ openName)) := by
  obtain ⟨places, rfl, fits⟩ := exists_fits_of_tokensOf leftRead rightRead sameLexemes
  have suggested (openName : List Char)
      : SameResult leftTokens (leftTokens.map places.token)
          (catalog.suggestBehind leftTokens openName)
          (catalog.suggestBehind (leftTokens.map places.token) openName) := by
    rw [fits.suggestBehind_map]
    exact sameResult_mapError (fun _ => Catalog.arisesFrom_of_suggestBehind) fits.inOrder
      places
  refine ⟨?_, ?_, ?_⟩
  · rw [Catalog.execute_eq_bind, Catalog.execute_eq_bind, leftRead, rightRead]
    change SameResult _ _ (catalog.answerTokens leftTokens) (catalog.answerTokens _)
    rw [fits.answerTokens_map]
    exact sameResult_mapError (fun _ => Catalog.arisesFrom_of_answerTokens) fits.inOrder
      places
  · rw [Catalog.suggest_of_tokensOf leftRead, Catalog.suggest_of_tokensOf rightRead]
    exact suggested []
  · intro openName unquoted
    rw [Catalog.suggest_openName_of_tokensOf leftRead unquoted,
      Catalog.suggest_openName_of_tokensOf rightRead unquoted]
    exact suggested openName.toList

/-- Over lines and without them, the same reference is reported to be ambiguous where a column
is being typed.
-/
theorem ambiguous_schema_in_two_layouts
    : let left := "FROM \"public\".\"users\" SELECT "
      let right := "FROM\n\"public\" .\t\"users\"\nSELECT\n"
      ∃ leftTokens rightTokens leftFault rightFault,
        tokensOf left = .ok leftTokens
        ∧ tokensOf right = .ok rightTokens
        ∧ twoRegions.toCatalog.suggest (left ++ "\"" ++ "i") = .error leftFault
        ∧ twoRegions.toCatalog.suggest (right ++ "\"" ++ "i") = .error rightFault
        ∧ leftFault.message = rightFault.message
        ∧ SamePlace leftTokens rightTokens leftFault.span? rightFault.span? := by
  intro left right
  let lexemes := ["FROM", "\"public\"", ".", "\"users\"", "SELECT"]
  have leftLexed : List.map Token.lexeme <$> tokensOf left = .ok lexemes := by
    decide +kernel
  have rightLexed : List.map Token.lexeme <$> tokensOf right = .ok lexemes := by
    decide +kernel
  obtain ⟨leftTokens, leftRead, leftSpelled⟩ := map_eq_ok_iff.mp leftLexed
  obtain ⟨rightTokens, rightRead, rightSpelled⟩ := map_eq_ok_iff.mp rightLexed
  have rejected
      : twoRegions.toCatalog.suggest (left ++ "\"" ++ "i")
        = .error (.semantic (.ambiguousSchema "public") (some {
            start := { line := 1, column := 6 }
            stop := { line := 1, column := 22 }
          })) := by
    decide +kernel
  obtain ⟨_, _, suggested⟩ := @layout_never_changes_meaning twoRegions.toCatalog left right
    leftTokens rightTokens leftRead rightRead (leftSpelled.trans rightSpelled.symm)
  have same := suggested "i" (by decide)
  rw [rejected] at same
  cases result : twoRegions.toCatalog.suggest (right ++ "\"" ++ "i") with
  | ok suggestions =>
      rw [result] at same
      cases same
  | error rightFault =>
      rw [result] at same
      cases same with
      | error _ message place =>
          exact ⟨leftTokens, rightTokens, _, rightFault, leftRead, rightRead, rejected, rfl,
            message, place⟩

end TableQuery
