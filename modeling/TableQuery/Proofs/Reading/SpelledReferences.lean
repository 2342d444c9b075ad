import TableQuery.Proofs.Lexing.LexemeForms
import TableQuery.Statement

/-! Names that references spell.
An identifier spells any name without quotes, so a reference spells any such names as soon as
there is a first one.
-/

namespace TableQuery

/-- Some identifier stands for any name without quotes: the quoted name is its lexeme. -/
theorem exists_identifier {name : String} (plain : quote ∉ name.toList)
    : ∃ identifier : Identifier, identifier.name = name := by
  let token : Token := {
    kind := .identifier
    lexeme := String.ofList (quote :: name.toList ++ [quote])
    span := { start := .first, stop := .first }
    recognized := recognizes_iff.mpr (String.toList_ofList ▸ .identifier plain)
  }
  refine ⟨⟨token, rfl⟩, ?_⟩
  simp [token, TokenOf.name, Token.unquote]

namespace TableRef

/-- Dots can be put in front of further names, by induction over the names. -/
theorem exists_more_of_names {names : List String}
    (plain : ∀ name ∈ names, quote ∉ name.toList)
    : ∃ more : List DottedPart, more.map (fun dotted => dotted.part.name) = names := by
  let dot : TokenOf .dot := {
    token := {
      kind := .dot
      lexeme := "."
      span := { start := .first, stop := .first }
      recognized := by decide
    }
    kind_eq := rfl
  }
  induction names with
  | nil => exact ⟨[], rfl⟩
  | cons name names ih =>
      rw [List.forall_mem_cons] at plain
      obtain ⟨part, rfl⟩ := exists_identifier plain.1
      obtain ⟨more, rfl⟩ := ih plain.2
      exact ⟨{ dot, part } :: more, rfl⟩

/-- Some reference spells any names without quotes, if there are any names. -/
theorem exists_of_names {names : List String} (notEmpty : names ≠ [])
    (plain : ∀ name ∈ names, quote ∉ name.toList)
    : ∃ reference : TableRef, reference.names = names := by
  cases names with
  | nil => exact absurd rfl notEmpty
  | cons name names =>
      rw [List.forall_mem_cons] at plain
      obtain ⟨first, rfl⟩ := exists_identifier plain.1
      obtain ⟨more, rfl⟩ := exists_more_of_names plain.2
      exact ⟨{ first, more }, by simp [TableRef.names, parts, Function.comp_def]⟩

end TableRef

end TableQuery
