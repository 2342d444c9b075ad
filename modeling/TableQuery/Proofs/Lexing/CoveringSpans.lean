import Mathlib.Order.Lattice
import Mathlib.Order.MinMax
import TableQuery.Proofs.Lexing.ItemSpans

/-! Spans around others.
Spans are ordered by lying inside each other, and merging two of them yields the least span
around both.  Covering a list yields the least span around those that have a place, so it
depends on nothing but which spans these are.
-/

namespace TableQuery

namespace Span

/-- A span lies inside another one if it neither starts in front of it nor stops behind it. -/
instance : LE Span where
  le inner outer := outer.start ≤ inner.start ∧ inner.stop ≤ outer.stop

/-- A span lies around all spans of a list that have a place. -/
def Surrounds (outer : Span) (spans : List Span) : Prop :=
  ∀ span ∈ spans, span.isEndOfInput = false → span ≤ outer

/-- Merging is the supremum of spans, because it takes the earlier start and the later stop. -/
instance : SemilatticeSup Span where
  le_refl _ := ⟨le_rfl, le_rfl⟩
  le_trans _ _ _ inner outer := ⟨outer.1.trans inner.1, inner.2.trans outer.2⟩
  le_antisymm _ _ inner outer :=
    Span.ext (le_antisymm outer.1 inner.1) (le_antisymm inner.2 outer.2)
  sup := merge
  le_sup_left _ _ := ⟨min_le_left _ _, le_max_left _ _⟩
  le_sup_right _ _ := ⟨min_le_right _ _, le_max_right _ _⟩
  sup_le _ _ _ left right := ⟨le_min left.1 right.1, max_le left.2 right.2⟩

variable {left right first cover outer : Span} {spans others more : List Span}

-----------------------------------------------------------------------------------------
-- Merged spans have a place
-----------------------------------------------------------------------------------------

/-- A position is nowhere as soon as it is not behind the one that does not exist. -/
theorem eq_nowhere_of_le {position : Position} (nowhere : position ≤ endOfInput.stop)
    : position = endOfInput.stop := by
  have lines := position.line_ge
  have columns := position.column_ge
  simp only [Position.le_def, endOfInput] at nowhere
  apply Position.ext
  · simp only [endOfInput]
    omega
  · simp only [endOfInput]
    omega

/-- Spans that have a place are merged to one that has a place.
A single end of a span may be nowhere.  If both ends of the merged span were, then one of the
two spans would start there, and it would have to stop there too.
-/
theorem isEndOfInput_merge (leftPlaced : left.isEndOfInput = false)
    (rightPlaced : right.isEndOfInput = false)
    : (left.merge right).isEndOfInput = false := by
  simp only [isEndOfInput, beq_eq_false_iff_ne] at leftPlaced rightPlaced ⊢
  intro atEnd
  have start : min left.start right.start = endOfInput.start := congrArg Span.start atEnd
  have stop : max left.stop right.stop = endOfInput.stop := congrArg Span.stop atEnd
  rcases min_choice left.start right.start with isLeft | isRight
  · have leftStop : left.stop ≤ endOfInput.stop := stop ▸ le_max_left left.stop right.stop
    exact leftPlaced (Span.ext (isLeft.symm.trans start) (eq_nowhere_of_le leftStop))
  · have rightStop : right.stop ≤ endOfInput.stop := stop ▸ le_max_right left.stop right.stop
    exact rightPlaced (Span.ext (isRight.symm.trans start) (eq_nowhere_of_le rightStop))

/-- Merging spans that have a place one after the other never loses it, by induction. -/
theorem isEndOfInput_foldl_merge (placed : ∀ span ∈ first :: more, span.isEndOfInput = false)
    : (more.foldl merge first).isEndOfInput = false := by
  induction more generalizing first with
  | nil => exact placed first List.mem_cons_self
  | cons second more ih =>
      obtain ⟨firstPlaced, secondPlaced, later⟩ := by
        simpa only [List.forall_mem_cons] using placed
      exact ih (List.forall_mem_cons.mpr ⟨isEndOfInput_merge firstPlaced secondPlaced, later⟩)

-----------------------------------------------------------------------------------------
-- The least span around a list
-----------------------------------------------------------------------------------------

/-- A merged span lies inside another one exactly if both spans do. -/
theorem merge_le_iff : left.merge right ≤ outer ↔ left ≤ outer ∧ right ≤ outer :=
  sup_le_iff

/-- Spans merged one after the other lie inside another span exactly if each of them does, by
induction.
-/
theorem foldl_merge_le_iff
    : (more.foldl merge first) ≤ outer ↔ ∀ span ∈ first :: more, span ≤ outer := by
  induction more generalizing first with
  | nil => simp
  | cons second more ih =>
      rw [List.foldl_cons, ih]
      simp only [List.forall_mem_cons, merge_le_iff, and_assoc]

/-- Nothing is covered exactly where no span has a place. -/
theorem covering_eq_none_iff : covering spans = none ↔ ∀ span ∈ spans, span.isEndOfInput := by
  rw [covering]
  split
  · rename_i noneLeft
    simpa using noneLeft
  · rename_i first more someLeft
    have member : first ∈ spans.filter (fun span => !span.isEndOfInput) := by
      rw [someLeft]
      exact List.mem_cons_self
    obtain ⟨inSpans, placed⟩ := List.mem_filter.mp member
    refine iff_of_false nofun (fun none => ?_)
    simp [none first inSpans] at placed

/-- A covering span has a place itself, and it lies inside exactly those that surround the
covered ones.
-/
theorem of_covering_eq_some (covered : covering spans = some cover)
    : cover.isEndOfInput = false ∧ ∀ outer, cover ≤ outer ↔ outer.Surrounds spans := by
  rw [covering] at covered
  split at covered
  · cases covered
  · rename_i first more someLeft
    obtain rfl := Option.some.inj covered
    refine ⟨isEndOfInput_foldl_merge ?_, fun outer => ?_⟩
    · rw [← someLeft]
      intro span member
      simpa using (List.mem_filter.mp member).2
    · rw [foldl_merge_le_iff, ← someLeft]
      simp only [Surrounds, List.mem_filter, Bool.not_eq_true', and_imp]

/-- A covering span is found through what it does: lists that agree on whether any span has a
place, and on what surrounds them, are covered alike.
-/
theorem covering_eq_of_surrounds_iff
    (placed : (∀ span ∈ spans, span.isEndOfInput) ↔ ∀ span ∈ others, span.isEndOfInput)
    (surrounds : ∀ outer : Span, outer.Surrounds spans ↔ outer.Surrounds others)
    : covering spans = covering others := by
  rw [← covering_eq_none_iff, ← covering_eq_none_iff] at placed
  cases covered : covering spans with
  | none => exact (placed.mp covered).symm
  | some cover =>
      cases coveredToo : covering others with
      | none => exact absurd (placed.mpr coveredToo) (by simp [covered])
      | some other =>
          have inside := (of_covering_eq_some covered).2
          have insideToo := (of_covering_eq_some coveredToo).2
          have same : cover = other := eq_of_forall_ge_iff fun outer =>
            (inside outer).trans ((surrounds outer).trans (insideToo outer).symm)
          rw [same]

/-- Covering looks at nothing but which spans that have a place are in the list. -/
theorem covering_congr
    (same : ∀ span, span.isEndOfInput = false → (span ∈ spans ↔ span ∈ others))
    : covering spans = covering others := by
  have all (p : Span → Prop)
      : (∀ span ∈ spans, span.isEndOfInput = false → p span)
        ↔ ∀ span ∈ others, span.isEndOfInput = false → p span := by
    constructor
    · intro hold span member placed
      exact hold span ((same span placed).mpr member) placed
    · intro hold span member placed
      exact hold span ((same span placed).mp member) placed
  apply covering_eq_of_surrounds_iff
  · simpa using all (fun _ => False)
  · exact fun outer => all (fun span => span ≤ outer)

/-- What lies around the covering spans of parts lies around the parts, and the other way
round: a part that nothing covers has no span with a place.
-/
theorem surrounds_filterMap_covering (parts : List (List Span))
    : outer.Surrounds (parts.filterMap covering) ↔ ∀ part ∈ parts, outer.Surrounds part := by
  simp only [Surrounds, List.mem_filterMap]
  constructor
  · intro hold part inParts span member placed
    cases covered : covering part with
    | none => simp [covering_eq_none_iff.mp covered span member] at placed
    | some cover =>
        obtain ⟨coverPlaced, inside⟩ := of_covering_eq_some covered
        exact (inside outer).mp (hold cover ⟨part, inParts, covered⟩ coverPlaced) span member
          placed
  · rintro hold cover ⟨part, inParts, covered⟩ _
    exact ((of_covering_eq_some covered).2 outer).mpr (hold part inParts)

/-- Covering the parts of a list, and then what covers them, is covering the list. -/
theorem covering_flatten (parts : List (List Span))
    : covering parts.flatten = covering (parts.filterMap covering) := by
  apply covering_eq_of_surrounds_iff
  · simp only [List.forall_mem_flatten, ← covering_eq_none_iff, List.mem_filterMap]
    constructor
    · rintro none cover ⟨part, inParts, covered⟩
      simp [none part inParts] at covered
    · intro atEnd part inParts
      cases covered : covering part with
      | none => rfl
      | some cover =>
          have placed := (of_covering_eq_some covered).1
          simp [atEnd cover ⟨part, inParts, covered⟩] at placed
  · intro outer
    rw [surrounds_filterMap_covering]
    exact List.forall_mem_flatten

end Span

/-- Merging yields the least span around two, and covering yields the one around a list.
A list is covered exactly if any of its spans has a place.  What covers it has a place too,
surrounds these spans, and lies inside whatever else surrounds them.  It depends on nothing but
which spans these are, not on their order or number nor on those at the end of input, and a
list can be covered part by part.
-/
theorem covering_least
    : (∀ left middle right : Span,
        (left.merge middle).merge right = left.merge (middle.merge right))
      ∧ (∀ left right : Span, left.merge right = right.merge left)
      ∧ (∀ span : Span, span.merge span = span)
      ∧ (∀ left right outer : Span, left.merge right ≤ outer ↔ left ≤ outer ∧ right ≤ outer)
      ∧ (∀ spans, Span.covering spans = none ↔ ∀ span ∈ spans, span.isEndOfInput)
      ∧ (∀ spans cover,
          Span.covering spans = some cover
          → cover.isEndOfInput = false
            ∧ cover.Surrounds spans
            ∧ ∀ outer : Span, outer.Surrounds spans → cover ≤ outer)
      ∧ (∀ spans others,
          (∀ span, span.isEndOfInput = false → (span ∈ spans ↔ span ∈ others))
          → Span.covering spans = Span.covering others)
      ∧ ∀ parts : List (List Span),
          Span.covering parts.flatten = Span.covering (parts.filterMap Span.covering) := by
  refine ⟨sup_assoc, sup_comm, sup_idem, fun _ _ _ => Span.merge_le_iff,
    fun _ => Span.covering_eq_none_iff, ?_, fun _ _ => Span.covering_congr,
    Span.covering_flatten⟩
  intro spans cover covered
  obtain ⟨placed, inside⟩ := Span.of_covering_eq_some covered
  exact ⟨placed, (inside cover).mp le_rfl, fun outer => (inside outer).mpr⟩

/-- Two spans of which one starts nowhere and the other one stops nowhere, with an end of input
between them, are covered by a span that has a place, and so they are in the other order.
-/
theorem covering_half_placed
    : let opening : Span := ⟨⟨-1, -1, by decide, by decide⟩, ⟨1, 4, by decide, by decide⟩⟩
      let closing : Span := ⟨⟨2, 1, by decide, by decide⟩, ⟨-1, -1, by decide, by decide⟩⟩
      let spans := [closing, .endOfInput, opening]
      Span.covering spans = some opening
      ∧ opening.isEndOfInput = false
      ∧ opening.Surrounds spans
      ∧ Span.covering [opening, closing] = Span.covering spans := by
  intro opening closing spans
  obtain ⟨_, _, _, _, _, covers, sameMembers, _⟩ := covering_least
  have covered : Span.covering spans = some opening := by decide
  obtain ⟨placed, surrounds, _⟩ := covers spans opening covered
  refine ⟨covered, placed, surrounds, sameMembers _ _ ?_⟩
  intro span hasPlace
  have notAtEnd : span ≠ .endOfInput := beq_eq_false_iff_ne.mp hasPlace
  simp only [spans, List.mem_cons, List.not_mem_nil, notAtEnd, false_or, or_false]
  exact or_comm

end TableQuery
