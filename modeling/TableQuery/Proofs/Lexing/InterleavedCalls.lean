import TableQuery.Proofs.Lexing.ItemSpans

/-! Single steps and whole readings on one lexer, in any order.
A text determines the items that single steps yield.  Whatever is asked of its lexer, each
answer goes on with the items that no answer before it returned or passed over.
-/

namespace TableQuery

/-- What can be asked of a lexer. -/
inductive LexerCall where
  | next
  | tokenize

/-- What a lexer answers: the next item unless none is left, or all tokens that are left
unless one of their lexemes is rejected.
-/
inductive LexerAnswer where
  | item (next : Option LexedItem)
  | tokens (all : Except Diagnostic (List Token))

namespace Lexer

/-- The answer to one call, and the lexer that stands behind what was read for it. -/
def answer (lexer : Lexer) : LexerCall → LexerAnswer × Lexer
  | .next =>
      match lexer.next? with
      | none => (.item none, lexer)
      | some (item, after) => (.item (some item), after)
  | .tokenize => (.tokens lexer.tokenize.1, lexer.tokenize.2)

/-- The answers to calls on the same lexer, one after the other. -/
def answers (lexer : Lexer) : List LexerCall → List LexerAnswer × Lexer
  | [] => ([], lexer)
  | call :: calls =>
      let (first, after) := lexer.answer call
      let (more, final) := after.answers calls
      (first :: more, final)

end Lexer

-----------------------------------------------------------------------------------------
-- What a call takes from the items that are left
-----------------------------------------------------------------------------------------

/-- A call takes items off the front, answers with them and leaves the others.
A single step takes one item.  A whole reading takes all of them if they are tokens, and else
takes the tokens in front of the first diagnostic together with it, and answers with it alone.
-/
inductive LexerCall.Takes
    : LexerCall → List LexedItem → LexerAnswer → List LexedItem → Prop
  | item (item : LexedItem) (left : List LexedItem)
    : Takes .next (item :: left) (.item (some item)) left
  | noItem : Takes .next [] (.item none) []
  | tokens (tokens : List Token)
    : Takes .tokenize (tokens.map .ok) (.tokens (.ok tokens)) []
  | diagnostic (passed : List Token) (diagnostic : Diagnostic) (left : List LexedItem)
    : Takes .tokenize (passed.map .ok ++ .error diagnostic :: left)
        (.tokens (.error diagnostic)) left

/-- Each of several calls takes from what the calls before it left. -/
inductive LexerCall.TakeInTurn
    : List LexerCall → List LexedItem → List LexerAnswer → List LexedItem → Prop
  | nil (items : List LexedItem) : TakeInTurn [] items [] items
  | cons {call calls items answer between answers left}
    (first : Takes call items answer between) (more : TakeInTurn calls between answers left)
    : TakeInTurn (call :: calls) items (answer :: answers) left

namespace LexerCall

variable {items : List LexedItem}

/-- One more token in front is returned with the others, or passed over with them. -/
theorem Takes.cons_token {all : Except Diagnostic (List Token)} {left : List LexedItem}
    (takes : Takes .tokenize items (.tokens all) left) (token : Token)
    : Takes .tokenize (.ok token :: items) (.tokens (all.map (token :: ·))) left := by
  cases takes with
  | tokens tokens => exact .tokens (token :: tokens)
  | diagnostic passed diagnostic => exact .diagnostic (token :: passed) diagnostic left

/-- The first diagnostic behind tokens can be told from the items, and so can what stands
behind it, by induction over the tokens.
-/
theorem tokens_append_diagnostic_inj {passed others : List Token}
    {diagnostic fault : Diagnostic} {left right : List LexedItem}
    (same
      : passed.map .ok ++ .error diagnostic :: left = others.map .ok ++ .error fault :: right)
    : diagnostic = fault ∧ left = right := by
  induction passed generalizing others with
  | nil =>
      cases others with
      | nil => simpa using same
      | cons other others => simp at same
  | cons token passed ih =>
      cases others with
      | nil => simp at same
      | cons other others => exact ih (List.cons.inj same).2

/-- Tokens alone hold no diagnostic. -/
theorem tokens_ne_append_diagnostic (tokens passed : List Token) (diagnostic : Diagnostic)
    (left : List LexedItem)
    : tokens.map .ok ≠ passed.map .ok ++ .error diagnostic :: left := by
  intro same
  have member : Except.error diagnostic ∈ tokens.map (Except.ok (ε := Diagnostic)) := by
    simp [same]
  simp at member

/-- What a call answers and leaves is determined by the items. -/
theorem Takes.unique {call : LexerCall} {answer other : LexerAnswer}
    {left right : List LexedItem} (takes : call.Takes items answer left)
    (takesOther : call.Takes items other right)
    : answer = other ∧ left = right := by
  cases takes with
  | item | noItem =>
      cases takesOther
      exact ⟨rfl, rfl⟩
  | tokens tokens =>
      generalize same : tokens.map Except.ok = items at takesOther
      cases takesOther with
      | tokens others =>
          obtain rfl := List.map_injective_iff.mpr (fun _ _ => Except.ok.inj) same
          exact ⟨rfl, rfl⟩
      | diagnostic passed diagnostic =>
          exact absurd same (tokens_ne_append_diagnostic tokens passed diagnostic right)
  | diagnostic passed diagnostic =>
      generalize same : passed.map Except.ok ++ .error diagnostic :: left = items at takesOther
      cases takesOther with
      | tokens others =>
          exact absurd same.symm (tokens_ne_append_diagnostic others passed diagnostic left)
      | diagnostic others fault =>
          obtain ⟨rfl, rfl⟩ := tokens_append_diagnostic_inj same
          exact ⟨rfl, rfl⟩

/-- So is what several calls answer and leave, by induction over them. -/
theorem TakeInTurn.unique {calls : List LexerCall} {answers others : List LexerAnswer}
    {left right : List LexedItem} (takes : TakeInTurn calls items answers left)
    (takesOther : TakeInTurn calls items others right)
    : answers = others ∧ left = right := by
  induction takes generalizing others with
  | nil =>
      cases takesOther
      exact ⟨rfl, rfl⟩
  | cons first more ih =>
      obtain _ | ⟨firstOther, moreOther⟩ := takesOther
      obtain ⟨rfl, rfl⟩ := first.unique firstOther
      obtain ⟨rfl, rfl⟩ := ih moreOther
      exact ⟨rfl, rfl⟩

end LexerCall

-----------------------------------------------------------------------------------------
-- A lexer takes from its own items
-----------------------------------------------------------------------------------------

namespace Lexer

/-- The items of a lexer are decided by its first step. -/
theorem items_eq (lexer : Lexer)
    : lexer.items
      = match lexer.next? with
        | none => []
        | some (item, after) => item :: after.items := by
  rw [items]
  split <;> rename_i step <;> simp only [step]

/-- A whole reading takes from the items that are left, by induction on its run: its steps are
those that yield the items.
-/
theorem takes_tokenize (lexer : Lexer)
    : LexerCall.tokenize.Takes lexer.items (.tokens lexer.tokenize.1)
        lexer.tokenize.2.items := by
  fun_induction Lexer.tokenize lexer with
  | case1 lexer step =>
      simp only [items_eq lexer, step]
      exact .tokens []
  | case2 lexer diagnostic after step =>
      simp only [items_eq lexer, step]
      exact .diagnostic [] diagnostic after.items
  | case3 lexer token after step tokens final more ih =>
      simp only [items_eq lexer, step]
      rw [more] at ih
      exact ih.cons_token token

/-- Every call takes from the items that are left. -/
theorem takes_answer (lexer : Lexer) (call : LexerCall)
    : call.Takes lexer.items (lexer.answer call).1 (lexer.answer call).2.items := by
  cases call with
  | next =>
      rw [answer, items_eq lexer]
      cases step : lexer.next? with
      | none =>
          simp only [items_eq lexer, step]
          exact .noItem
      | some taken => exact .item taken.1 taken.2.items
  | tokenize => exact lexer.takes_tokenize

/-- Calls take from the items in turn, by induction over them. -/
theorem takeInTurn_answers (lexer : Lexer) (calls : List LexerCall)
    : LexerCall.TakeInTurn calls lexer.items (lexer.answers calls).1
        (lexer.answers calls).2.items := by
  induction calls generalizing lexer with
  | nil => exact .nil lexer.items
  | cons call calls ih => exact .cons (lexer.takes_answer call) (ih _)

/-- Single steps alone yield the items in order and then nothing, by induction over them. -/
theorem answers_replicate_next (lexer : Lexer) (count : Nat)
    : (lexer.answers (List.replicate count .next)).1
      = (List.range count).map (fun index => .item lexer.items[index]?) := by
  induction count generalizing lexer with
  | zero => rfl
  | succ count ih =>
      simp only [List.replicate_succ, answers, ih, List.range_succ_eq_map, List.map_cons,
        List.map_map, Function.comp_def]
      cases step : lexer.next? with
      | none => simp [answer, items_eq lexer, step]
      | some taken => simp [answer, items_eq lexer, step]

end Lexer

-----------------------------------------------------------------------------------------
-- Texts
-----------------------------------------------------------------------------------------

/-- Behind what was read a text goes on with what its items show, each behind separators, by
induction over the items.
-/
theorem ItemsBehind.exists_pieces {text read : List Char} {items : List LexedItem}
    (behind : ItemsBehind text read items)
    : ∃ (pieces : List (List Char × String)) (trailing : List Char),
        text = read ++ pieces.flatMap (fun piece => piece.1 ++ piece.2.toList) ++ trailing
        ∧ (∀ gap ∈ trailing :: pieces.map Prod.fst, ∀ c ∈ gap, isSeparator c)
        ∧ List.Forall₂ (fun item piece => item.Shows piece.2 ∧ piece.2 ≠ "") items pieces := by
  induction behind with
  | @nil read trailing whole blank =>
      exact ⟨[], trailing, by simpa using whole, by simpa using blank, .nil⟩
  | @cons read gap lexeme item more blank notEmpty shown _ _ ih =>
      obtain ⟨pieces, trailing, whole, separators, shownMore⟩ := ih
      obtain ⟨blankTrailing, blankGaps⟩ := List.forall_mem_cons.mp separators
      have notEmptyString : String.ofList lexeme ≠ "" := fun empty =>
        notEmpty (String.ofList_injective empty)
      refine ⟨(gap, String.ofList lexeme) :: pieces, trailing, ?_, ?_,
        .cons ⟨shown, notEmptyString⟩ shownMore⟩
      · simpa [List.append_assoc] using whole
      · simp only [List.map_cons, List.forall_mem_cons]
        exact ⟨blankTrailing, blank, blankGaps⟩

/-- Reading a text in single steps and in whole readings, in any order, loses and repeats
nothing.  Single steps alone yield finitely many items and then nothing more, and the text is
what the items show, with separators around them.  Calls in any order take from these items in
turn: their answers, and what is left behind them, are the only ones that do.
-/
theorem calls_take_items_in_turn (text : String)
    : let lexer := Lexer.ofText text
      (∀ count,
        (lexer.answers (List.replicate count .next)).1
          = (List.range count).map (fun index => .item lexer.items[index]?))
      ∧ (∃ (pieces : List (List Char × String)) (trailing : List Char),
          text.toList = pieces.flatMap (fun piece => piece.1 ++ piece.2.toList) ++ trailing
          ∧ (∀ gap ∈ trailing :: pieces.map Prod.fst,
              ∀ c ∈ gap, c = '\n' ∨ c = ' ' ∨ c = '\t')
          ∧ List.Forall₂ (fun item piece => item.Shows piece.2 ∧ piece.2 ≠ "") lexer.items
              pieces)
      ∧ (∀ calls answers left,
          LexerCall.TakeInTurn calls lexer.items answers left
            ↔ (lexer.answers calls).1 = answers ∧ (lexer.answers calls).2.items = left) := by
  intro lexer
  refine ⟨lexer.answers_replicate_next, ?_, ?_⟩
  · simpa only [isSeparator_iff, List.nil_append]
      using (standsIn_ofText text).itemsBehind.exists_pieces
  · intro calls answers left
    constructor
    · intro takes
      exact (lexer.takeInTurn_answers calls).unique takes
    · rintro ⟨rfl, rfl⟩
      exact lexer.takeInTurn_answers calls

end TableQuery
