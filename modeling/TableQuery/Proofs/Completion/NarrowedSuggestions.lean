import TableQuery.Proofs.Completion.AcceptedColumns
import TableQuery.Proofs.Completion.ReachablePaths

/-! Typing on inside an open name.
Nothing behind the last quote is read, so what is typed there neither moves the place where
the reading stopped nor changes a rejection.  It only chooses among the candidates of that
place, and a longer beginning of a name never chooses more of them.
-/

namespace TableQuery

-----------------------------------------------------------------------------------------
-- Longer beginnings of a name
-----------------------------------------------------------------------------------------

/-- A name that begins with more begins with less. -/
theorem beginsWith_of_append {openName more : List Char} {name : String}
    (begins : beginsWith (openName ++ more) name)
    : beginsWith openName name := by
  rw [beginsWith_eq, decide_eq_true_iff] at begins ⊢
  exact (List.prefix_append openName more).trans begins

/-- A closing quote decides nothing about what a name begins with, because what was typed of
the name holds none.
-/
theorem beginsWith_push_quote {openName : List Char} (unquoted : quote ∉ openName)
    (name : String)
    : beginsWith openName (name.push quote) = beginsWith openName name := by
  rw [beginsWith_eq, Bool.eq_iff_iff, decide_eq_true_iff, decide_eq_true_iff,
    String.toList_push, List.prefix_concat_iff]
  constructor
  · intro begins
    refine begins.resolve_left ?_
    rintro rfl
    exact unquoted List.mem_concat_self
  · exact Or.inr

/-- A path that goes on with more of an open name goes on with less of it. -/
theorem TablePath.continues_of_append {path : TablePath} {typed : List String}
    {openName more : List Char} (continued : path.continues typed (openName ++ more))
    : path.continues typed openName := by
  obtain ⟨next, behind, ending, begins⟩ := continues_iff.mp continued
  exact continues_iff.mpr
    ⟨next, behind, ending, (List.prefix_append openName more).trans begins⟩

/-- Choosing by less and then by more is choosing by more at once. -/
theorem filter_filter_of_imp {α : Type} (less more : α → Bool)
    (weaker : ∀ item, more item → less item) (items : List α)
    : (items.filter less).filter more = items.filter more := by
  rw [List.filter_filter]
  apply List.filter_congr
  intro item _
  exact Bool.and_eq_left_iff_imp.mpr (weaker item)

-----------------------------------------------------------------------------------------
-- Candidates for a longer name
-----------------------------------------------------------------------------------------

namespace Catalog

/-- Suggestions at the place where parsing stopped, for an open name and for the same name
with more typed of it.
In the column list those stay that begin with all that was typed.  In the table reference
those paths stay that still go on from the names before the open one.
-/
structure Narrowed (catalog : Catalog) (context : ParseContext) (openName more : List Char)
    (shorter longer : List String)
    : Prop where
  sublist : longer.Sublist shorter
  ofColumns
    : context.stoppedIn = some .columnList
      → longer
        = shorter.filter (fun candidate => openName ++ more <+: candidate.toList)
  ofPaths
    : context.stoppedIn = some .table
      → ∃ typed paths,
          typed = context.table.elim [] TableRef.names
          ∧ paths = catalog.tablePaths.filter (·.continues typed openName)
          ∧ shorter = paths.map TablePath.display
          ∧ longer
            = (paths.filter (·.continues typed (openName ++ more))).map TablePath.display
  elsewhere : context.stoppedIn = none → shorter = [] ∧ longer = []

variable (catalog : Catalog)

/-- The columns that begin with more are those among the columns that begin with less. -/
theorem narrowed_columns {table : TableRef} {columnsRead : List Identifier}
    {openName more : List Char} (unquoted : quote ∉ openName ++ more) (columns : List String)
    : catalog.Narrowed (Progress.columns table columnsRead).context openName more
        ((columns.filter (beginsWith openName)).map (·.push quote))
        ((columns.filter (beginsWith (openName ++ more))).map (·.push quote)) := by
  have chosen
      : ((columns.filter (beginsWith openName)).map (·.push quote)).filter
            (beginsWith (openName ++ more))
        = (columns.filter (beginsWith (openName ++ more))).map (·.push quote) := by
    have closed : beginsWith (openName ++ more) ∘ (·.push quote)
        = beginsWith (openName ++ more) :=
      funext (beginsWith_push_quote unquoted)
    rw [List.filter_map, closed,
      filter_filter_of_imp _ _ (fun _ => beginsWith_of_append) columns]
  refine ⟨?_, ?_, ?_, ?_⟩
  · rw [← chosen]
    exact List.filter_sublist
  · intro _
    rw [← chosen, beginsWith_eq (openName ++ more)]
  · rw [Progress.stoppedIn_context]
    nofun
  · rw [Progress.stoppedIn_context]
    nofun

/-- The paths that go on with more are those among the paths that go on with less. -/
theorem narrowed_paths (partsRead : Option TableRef) (openName more : List Char)
    : let typed := partsRead.elim [] TableRef.names
      catalog.Narrowed (Progress.table partsRead).context openName more
        ((catalog.tablePaths.filter (·.continues typed openName)).map TablePath.display)
        ((catalog.tablePaths.filter (·.continues typed (openName ++ more))).map
          TablePath.display) := by
  intro typed
  have chosen :=
    filter_filter_of_imp (·.continues typed openName) (·.continues typed (openName ++ more))
      (fun _ => TablePath.continues_of_append) catalog.tablePaths
  refine ⟨?_, nofun, fun _ => ⟨typed, _, rfl, rfl, rfl, by rw [chosen]⟩, nofun⟩
  rw [← chosen]
  exact List.filter_sublist.map TablePath.display

/-- Candidates depend on the open name only in that more of it leaves fewer of them: whether
there are any is decided by the place alone.
-/
theorem narrowed_candidates (progress : Progress) {openName more : List Char}
    (unquoted : quote ∉ openName ++ more)
    : (∃ diagnostic,
        catalog.candidates progress.context openName = .error diagnostic
        ∧ catalog.candidates progress.context (openName ++ more) = .error diagnostic)
      ∨ ∃ shorter longer,
          catalog.candidates progress.context openName = .ok shorter
          ∧ catalog.candidates progress.context (openName ++ more) = .ok longer
          ∧ catalog.Narrowed progress.context openName more shorter longer := by
  cases progress with
  | fromKeyword | selectKeyword =>
      exact Or.inr ⟨[], [], rfl, rfl, .slnil, nofun, nofun, fun _ => ⟨rfl, rfl⟩⟩
  | table partsRead =>
      exact Or.inr ⟨_, _, rfl, rfl, catalog.narrowed_paths partsRead openName more⟩
  | columns table columnsRead =>
      cases resolved : catalog.resolve table with
      | error diagnostic =>
          have rejected (typed : List Char)
              : catalog.candidates (Progress.columns table columnsRead).context typed
                = .error diagnostic :=
            candidates_eq_error_iff.mpr ⟨table, columnsRead, rfl, resolved⟩
          exact Or.inl ⟨diagnostic, rejected _, rejected _⟩
      | ok path =>
          exact Or.inr ⟨_, _, candidates_of_columns resolved columnsRead _,
            candidates_of_columns resolved columnsRead _,
            catalog.narrowed_columns unquoted (catalog.columns path)⟩

/-- Suggestions behind tokens are narrowed as the candidates where their reading stopped. -/
theorem narrowed_suggestBehind (tokens : List Token) {openName more : List Char}
    (unquoted : quote ∉ openName ++ more)
    : (∃ diagnostic,
        catalog.suggestBehind tokens openName = .error diagnostic
        ∧ catalog.suggestBehind tokens (openName ++ more) = .error diagnostic)
      ∨ ∃ shorter longer,
          catalog.suggestBehind tokens openName = .ok shorter
          ∧ catalog.suggestBehind tokens (openName ++ more) = .ok longer
          ∧ catalog.Narrowed (Statement.parse tokens).context openName more shorter
              longer := by
  have narrowed := catalog.narrowed_candidates (Statement.read tokens).progress unquoted
  cases result : (Statement.read tokens).result with
  | ok statement => simpa only [suggestBehind, Statement.parse_eq_read, result] using narrowed
  | error fault =>
      cases ended : fault.isUnexpectedEnd with
      | true =>
          simpa only [suggestBehind, Statement.parse_eq_read, result, ended, if_true]
            using narrowed
      | false =>
          have unread : Statement.ofTokens? tokens = .error fault :=
            (Statement.ofTokens?_eq_read tokens).trans result
          have rejected (typed : List Char)
              : catalog.suggestBehind tokens typed = .error fault :=
            suggestBehind_eq_error_iff.mpr (Or.inl ⟨unread, ended⟩)
          exact Or.inl ⟨fault, rejected _, rejected _⟩

end Catalog

-----------------------------------------------------------------------------------------
-- Texts that are typed on
-----------------------------------------------------------------------------------------

/-- Typing on inside an open name only narrows the suggestions.
A text with an open quote, and the same text with more behind it that holds no quote, are both
rejected with one diagnostic, or the suggestions for the longer text are those for the shorter
one that the longer open name leaves, in the same order.  Opening a name where none is open
changes nothing.
-/
theorem typing_narrows_suggestions (catalog : Catalog) (text : String)
    : (∀ more : String,
        text.toList.count quote % 2 = 1
        → quote ∉ more.toList
        → let typed := TypedText.ofChars text.toList
          text.toList = typed.complete ++ quote :: typed.openName
          ∧ quote ∉ typed.openName
          ∧ ((∃ diagnostic,
              catalog.suggest text = .error diagnostic
              ∧ catalog.suggest (text ++ more) = .error diagnostic)
            ∨ ∃ tokens shorter longer,
                tokensOf (String.ofList typed.complete) = .ok tokens
                ∧ catalog.suggest text = .ok shorter
                ∧ catalog.suggest (text ++ more) = .ok longer
                ∧ catalog.Narrowed (Statement.parse tokens).context typed.openName
                    more.toList shorter longer))
      ∧ (text.toList.count quote % 2 = 0
        → catalog.suggest (text.push quote) = catalog.suggest text) := by
  constructor
  · intro more odd unquotedMore
    have opened : hasOpenQuote text.toList := by
      simp [hasOpenQuote, odd]
    obtain ⟨before, openName, whole, closed, unquoted⟩ := exists_last_quote opened
    have wholeMore : (text ++ more).toList = before ++ quote :: (openName ++ more.toList) := by
      simp [whole]
    have unquotedName : quote ∉ openName ++ more.toList := by
      simpa using And.intro unquoted unquotedMore
    have splits : TypedText.Splits text.toList { complete := before, openName } :=
      .opened whole closed unquoted
    rw [TypedText.splits_iff.mp splits, Catalog.suggest_eq_bind splits,
      Catalog.suggest_eq_bind (.opened wholeMore closed unquotedName)]
    refine ⟨whole, unquoted, ?_⟩
    cases read : tokensOf (String.ofList before) with
    | error diagnostic => exact Or.inl ⟨diagnostic, rfl, rfl⟩
    | ok tokens =>
        rcases catalog.narrowed_suggestBehind tokens unquotedName with
          rejected | ⟨shorter, longer, suggested, suggestedMore, narrowed⟩
        · exact Or.inl rejected
        · exact Or.inr ⟨tokens, shorter, longer, rfl, suggested, suggestedMore, narrowed⟩
  · intro even
    have closed : hasOpenQuote text.toList = false := by
      simp [hasOpenQuote, even]
    have whole : (text.push quote).toList = text.toList ++ quote :: [] :=
      String.toList_push quote
    rw [Catalog.suggest_eq_bind (.opened whole closed List.not_mem_nil),
      Catalog.suggest_eq_bind (.closed closed)]

/-- Of all columns, which are suggested behind an opening quote, typing on leaves one. -/
theorem suggestions_narrow_to_id
    : let text := "FROM \"pipes\" SELECT "
      let opened := text.push quote
      text.toList.count quote % 2 = 0
      ∧ pipes.toCatalog.suggest text = .ok ["5\"\"", "id\""]
      ∧ opened.toList.count quote % 2 = 1
      ∧ quote ∉ "i".toList
      ∧ pipes.toCatalog.suggest opened = .ok ["5\"\"", "id\""]
      ∧ pipes.toCatalog.suggest (opened ++ "i") = .ok ["id\""] := by
  intro text opened
  have suggested : pipes.toCatalog.suggest text = .ok ["5\"\"", "id\""] := by
    decide +kernel
  have suggestedOpened : pipes.toCatalog.suggest opened = .ok ["5\"\"", "id\""] :=
    ((typing_narrows_suggestions pipes.toCatalog text).2 (by decide)).trans suggested
  have typed : TypedText.ofChars opened.toList = { complete := text.toList, openName := [] } := by
    decide
  have stopped
      : (tokensOf (String.ofList text.toList)).map
          (fun tokens => (Statement.parse tokens).context.stoppedIn)
        = .ok (some .columnList) := by
    decide +kernel
  obtain ⟨_, _, narrowed⟩ :=
    (typing_narrows_suggestions pipes.toCatalog opened).1 "i" (by decide) (by decide)
  rw [typed] at narrowed
  rcases narrowed with
    ⟨diagnostic, rejected, _⟩ | ⟨tokens, shorter, longer, read, isShorter, isLonger, narrowed⟩
  · rw [suggestedOpened] at rejected
    cases rejected
  · rw [read] at stopped
    obtain rfl := Except.ok.inj (suggestedOpened.symm.trans isShorter)
    have kept : longer = ["id\""] := by
      rw [narrowed.ofColumns (Except.ok.inj stopped)]
      decide
    exact ⟨by decide, suggested, by decide, by decide, suggestedOpened, kept ▸ isLonger⟩

end TableQuery
