import TableQuery.Proofs.Catalogs.Qualification
import TableQuery.Proofs.Completion.CursorSuggestions
import TableQuery.Proofs.Lexing.TokenPlaces
import TableQuery.Proofs.Reading.StoppedReferences

/-! Which paths are suggested inside the table reference.
A path is listed exactly if some reference that goes on from what was typed would be resolved
to it, or be asked to tell it apart.  So nothing is listed that typing on cannot reach, and
nothing that it can reach is left out.
-/

namespace TableQuery

/-- A reference goes on from typed names with one that begins with an open name. -/
structure TableRef.GoesOn (reference : TableRef) (typed : List String) (openName : List Char)
    : Prop where
  inLimit : reference.parts.length ≤ maxParts
  names
    : ∃ next behind, reference.names = typed ++ next :: behind ∧ openName <+: next.toList

/-- A path is reached from what was typed where a reference that goes on from it is resolved
to the path, or names its last segments and is ambiguous.
-/
def Catalog.ReachableFrom (catalog : Catalog) (typed : List String) (openName : List Char)
    (path : TablePath)
    : Prop :=
  ∃ reference : TableRef,
    reference.GoesOn typed openName
    ∧ reference.names <:+ path.segments
    ∧ catalog.ResolvesUnlessAmbiguous reference path

-----------------------------------------------------------------------------------------
-- Continued paths
-----------------------------------------------------------------------------------------

theorem continuesFrom_iff {typed names : List String} {openName : List Char}
    : continuesFrom typed openName names
      ↔ ∃ next behind, names = typed ++ next :: behind ∧ openName <+: next.toList := by
  constructor
  · intro continued
    simp only [continuesFrom, beginsWith, Bool.and_eq_true, beq_iff_eq, Option.any_eq_true,
      List.isPrefixOf_iff_prefix] at continued
    obtain ⟨same, next, found, begins⟩ := continued
    obtain ⟨inside, rfl⟩ := List.getElem?_eq_some_iff.mp found
    refine ⟨_, names.drop (typed.length + 1), ?_, begins⟩
    calc
      names = names.take typed.length ++ names.drop typed.length :=
        (List.take_append_drop typed.length names).symm
      _ = typed ++ names[typed.length] :: names.drop (typed.length + 1) := by
        rw [same, List.cons_getElem_drop_succ]
  · rintro ⟨next, behind, rfl, begins⟩
    exact continuesFrom_append typed behind begins

/-- Completion lists a path exactly if some last names of it go on from what was typed. -/
theorem TablePath.continues_iff {path : TablePath} {typed : List String}
    {openName : List Char}
    : path.continues typed openName
      ↔ ∃ next behind,
          typed ++ next :: behind <:+ path.segments ∧ openName <+: next.toList := by
  constructor
  · intro continued
    obtain ⟨names, ending, goesOn⟩ := List.any_eq_true.mp continued
    obtain ⟨next, behind, rfl, begins⟩ := continuesFrom_iff.mp goesOn
    refine ⟨next, behind, ?_, begins⟩
    simp only [List.mem_cons, List.not_mem_nil, or_false] at ending
    rcases ending with whole | afterDatabase | afterSchema
    · exact whole ▸ List.suffix_rfl
    · exact afterDatabase ▸ List.drop_suffix 1 path.segments
    · exact afterSchema ▸ List.drop_suffix 2 path.segments
  · rintro ⟨next, behind, ending, begins⟩
    exact continues_of_suffix begins ending

/-- A listed path is continued exactly if it can be reached: its last names spell a
reference, which is resolved to the path unless it is ambiguous.
-/
theorem DocumentCatalog.continues_iff_reachableFrom {documents : DocumentCatalog}
    {path : TablePath} (listed : path ∈ documents.toCatalog.tablePaths)
    (plain : ∀ name ∈ path.segments, quote ∉ name.toList) {typed : List String}
    {openName : List Char}
    : path.continues typed openName
      ↔ documents.toCatalog.ReachableFrom typed openName path := by
  rw [TablePath.continues_iff]
  constructor
  · rintro ⟨next, behind, ending, begins⟩
    have notEmpty : typed ++ next :: behind ≠ [] := by simp
    obtain ⟨reference, spelled⟩ :=
      TableRef.exists_of_names notEmpty (fun name member => plain name (ending.subset member))
    have inLimit : reference.parts.length ≤ TableRef.maxParts :=
      calc
        reference.parts.length = reference.names.length := (List.length_map _).symm
        _ ≤ path.segments.length := spelled ▸ ending.length_le
    rw [← spelled] at ending
    exact ⟨reference, ⟨inLimit, next, behind, spelled, begins⟩, ending,
      (lists_iff_mem_tablePaths.mpr listed).resolvesUnlessAmbiguous ending⟩
  · rintro ⟨reference, ⟨_, next, behind, spelled, begins⟩, ending, _⟩
    exact ⟨next, behind, spelled ▸ ending, begins⟩

-----------------------------------------------------------------------------------------
-- What was typed of a reference
-----------------------------------------------------------------------------------------

namespace Catalog

variable {catalog : Catalog} {text : String} {typed : TypedText} {tokens : List Token}
  {suggestions : List String}

/-- Inside the table reference the suggestions are the listed paths that go on from the names
in front of the open one.
-/
theorem suggest_eq_continued (splits : TypedText.Splits text.toList typed)
    (read : tokensOf (String.ofList typed.complete) = .ok tokens)
    (inTable : (Statement.parse tokens).context.stoppedIn = some .table)
    (suggested : catalog.suggest text = .ok suggestions)
    : suggestions
      = (catalog.tablePaths.filter
          (·.continues (tokens.filterMap Token.name?) typed.openName)).map
            TablePath.display := by
  obtain ⟨partsRead, stopped⟩ := Statement.exists_parts_of_stoppedIn inTable
  obtain ⟨_, _, diagnostic, _, _, rejected⟩ := Statement.exists_read_of_table stopped
  simp only [suggest, TypedText.splits_iff.mp splits, read, bind, Except.bind,
    Statement.parse_eq_read, rejected] at suggested
  split at suggested
  · rename_i ended
    have placed := span_ne_endOfInput_of_tokensOf read
    rw [stopped, candidates_table, Statement.names_of_stopped stopped rejected ended placed]
      at suggested
    exact (Except.ok.inj suggested).symm
  · cases suggested

end Catalog

/-- Inside the table reference suggestions are complete and reachable.
Where a text can be completed there, each path of a document catalog is suggested exactly if
it is reached from the names that were typed and the open one, in the order of the paths.
All names of the paths have to be such that identifiers can spell them.
-/
theorem suggest_reachable_paths {documents : DocumentCatalog} {text : String}
    {typed : TypedText} {tokens : List Token} {suggestions : List String}
    (plain
      : ∀ path ∈ documents.toCatalog.tablePaths,
          ∀ name ∈ path.segments, quote ∉ name.toList)
    (splits : TypedText.Splits text.toList typed)
    (read : tokensOf (String.ofList typed.complete) = .ok tokens)
    (inTable : (Statement.parse tokens).context.stoppedIn = some .table)
    (suggested : documents.toCatalog.suggest text = .ok suggestions)
    [DecidablePred
      (documents.toCatalog.ReachableFrom (tokens.filterMap Token.name?) typed.openName)]
    : suggestions
      = (documents.toCatalog.tablePaths.filter (fun path =>
            documents.toCatalog.ReachableFrom (tokens.filterMap Token.name?) typed.openName
              path)).map
          TablePath.display := by
  rw [Catalog.suggest_eq_continued splits read inTable suggested]
  congr 1
  apply List.filter_congr
  intro path listed
  rw [Bool.eq_iff_iff, decide_eq_true_iff]
  exact DocumentCatalog.continues_iff_reachableFrom listed (plain path listed)

/-- Behind a schema that two databases have, the table of one of them is reached by the
beginning of its name.
-/
theorem suggest_users_in_public
    : twoRegions.toCatalog.suggest "FROM \"public\".\"u" = .ok ["south.public.users"]
      ∧ ∀ path ∈ twoRegions.toCatalog.tablePaths,
          twoRegions.toCatalog.ReachableFrom ["public"] ['u'] path
          ↔ path = ⟨"south", "public", "users"⟩ := by
  let lexemes : List SpacedLexeme := [.ofFrom, .ofName true ⟨"public", by decide⟩, .ofDot]
  let tokens := SpacedLexeme.tokensFrom .first lexemes
  let clause : FromClause := {
    keyword := { token := tokens[0], kind_eq := rfl }
    table := .single { token := tokens[1], kind_eq := rfl }
  }
  have apart : lexemes.IsChain SpacedLexeme.Apart :=
    SpacedLexeme.isChain_cons_of_gap (by decide)
      (List.isChain_cons_cons.mpr ⟨Or.inr (Or.inr rfl), .singleton _⟩)
  have splits : TypedText.Splits "FROM \"public\".\"u".toList
      { complete := SpacedLexeme.spell lexemes ++ [], openName := ['u'] } :=
    .opened (by decide) (by decide) (by decide)
  have read : tokensOf (String.ofList (SpacedLexeme.spell lexemes ++ [])) = .ok tokens :=
    tokensOf_eq_ok_iff.mpr ⟨⟨lexemes, [], apart, by simp⟩, String.toList_ofList.symm, rfl⟩
  have stopped : (Statement.read tokens).ReadUpTo (.table (some clause.table)) :=
    Statement.read_fromClause_dot clause { token := tokens[2], kind_eq := rfl } (by decide)
  have inTable : (Statement.parse tokens).context.stoppedIn = some .table := by
    rw [Statement.stoppedIn_parse, stopped.progress_eq]
    rfl
  have suggested
      : twoRegions.toCatalog.suggest "FROM \"public\".\"u" = .ok ["south.public.users"] := by
    rw [Catalog.suggest_eq_candidates apart (by simp) (TypedText.splits_iff.mp splits) stopped]
    decide
  have named : ["public"] = tokens.filterMap Token.name? := by decide
  have displayed : ∀ path ∈ twoRegions.toCatalog.tablePaths,
      path.display = "south.public.users" ↔ path = ⟨"south", "public", "users"⟩ := by
    decide
  refine ⟨suggested, ?_⟩
  rw [named]
  have reachable :=
    Classical.decPred (twoRegions.toCatalog.ReachableFrom (tokens.filterMap Token.name?) ['u'])
  have listing := suggest_reachable_paths (by decide) splits read inTable suggested
  intro path listed
  rw [← displayed path listed]
  constructor
  · intro reached
    apply List.mem_singleton.mp
    rw [listing]
    exact List.mem_map_of_mem (List.mem_filter.mpr ⟨listed, decide_eq_true reached⟩)
  · intro shown
    have member := List.mem_singleton.mpr shown
    rw [listing] at member
    obtain ⟨other, kept, same⟩ := List.mem_map.mp member
    obtain ⟨otherListed, reached⟩ := List.mem_filter.mp kept
    rw [shown, displayed other otherListed] at same
    rw [displayed path listed] at shown
    exact (same.trans shown.symm) ▸ of_decide_eq_true reached

end TableQuery
