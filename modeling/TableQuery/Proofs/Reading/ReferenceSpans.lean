import TableQuery.Proofs.Lexing.MergedSpans
import TableQuery.Statement

/-! The place of a table reference among tokens in order.
Merging the places of its names one after the other leads from the first name to the last.
-/

namespace TableQuery

namespace TableRef

@[simp]
theorem tokens_push (table : TableRef) (dot : TokenOf .dot) (part : Identifier)
    : (table.push dot part).tokens = table.tokens ++ [dot.token, part.token] := by
  simp [tokens, push]

@[simp]
theorem parts_push (table : TableRef) (dot : TokenOf .dot) (part : Identifier)
    : (table.push dot part).parts = table.parts ++ [part] := by
  simp [parts, push]

/-- A reference is a single name or comes from a shorter one by one more name. -/
@[elab_as_elim]
theorem pushRec {motive : TableRef → Prop} (single : ∀ first, motive (single first))
    (push : ∀ table dot part, motive table → motive (push table dot part)) (table : TableRef)
    : motive table := by
  obtain ⟨first, more⟩ := table
  induction more using List.reverseRecOn with
  | nil => exact single first
  | append_singleton more dotted ih => exact push ⟨first, more⟩ dotted.dot dotted.part ih

/-- The last token of a reference is its last name. -/
theorem getLast?_tokens (table : TableRef)
    : table.tokens.getLast? = table.parts.getLast?.map TokenOf.token := by
  induction table using pushRec with
  | single first => rfl
  | push table dot part => simp

/-- A reference has a last name, whose token is its last one. -/
theorem exists_last (table : TableRef)
    : ∃ last : Identifier,
        table.parts.getLast? = some last ∧ table.tokens.getLast? = some last.token := by
  obtain ⟨last, isLast⟩ : ∃ last, table.parts.getLast? = some last :=
    ⟨_, List.getLast?_cons⟩
  refine ⟨last, isLast, ?_⟩
  rw [getLast?_tokens, isLast]
  rfl

/-- The names of a reference are among its tokens, in the same order. -/
theorem names_sublist (table : TableRef)
    : (table.parts.map TokenOf.token).Sublist table.tokens := by
  induction table using pushRec with
  | single first => exact List.Sublist.refl _
  | push table dot part ih =>
      rw [parts_push, tokens_push, List.map_append]
      exact ih.append (List.sublist_cons_self dot.token [part.token])

/-- A reference in order reaches over its tokens: the first and the last of them are names,
whose places are merged.
-/
theorem reaches {table : TableRef} (inOrder : TokensInOrder table.tokens)
    : table.span.Reaches table.tokens := by
  have merged : table.span.Reaches (table.parts.map TokenOf.token) := by
    have names := table.first.token.reaches.foldl_merge (inOrder.sublist table.names_sublist)
    simpa [span, parts, TokenOf.span, List.foldl_map, List.map_map] using names
  obtain ⟨first, last, isFirst, isLast, place⟩ := merged
  refine ⟨first, last, isFirst, ?_, place⟩
  rw [getLast?_tokens, ← List.getLast?_map, isLast]

/-- A reference in order reaches from the start of its first name to the stop of its last. -/
theorem span_eq {table : TableRef} (inOrder : TokensInOrder table.tokens) {last : Token}
    (isLast : table.tokens.getLast? = some last)
    : table.span = { start := table.first.span.start, stop := last.span.stop } := by
  obtain ⟨first, behind, isFirst, isBehind, place⟩ := reaches inOrder
  obtain rfl := Option.some.inj isFirst
  obtain rfl := Option.some.inj (isBehind.symm.trans isLast)
  exact place

end TableRef

end TableQuery
