import Mathlib.Data.List.Forall2

/-! Traversals that stop at the first failure.
A traversal succeeds exactly if every item does, with the results in the order of the items,
and it fails with what the first failing item reports.
-/

namespace TableQuery

variable {α β δ ε : Type}

theorem bind_eq_ok_iff {first : Except ε α} {next : α → Except ε β} {result : β}
    : first >>= next = .ok result ↔ ∃ value, first = .ok value ∧ next value = .ok result := by
  cases first <;> simp [bind, Except.bind]

theorem bind_eq_error_iff {first : Except ε α} {next : α → Except ε β} {fault : ε}
    : first >>= next = .error fault
      ↔ first = .error fault ∨ ∃ value, first = .ok value ∧ next value = .error fault := by
  cases first <;> simp [bind, Except.bind]

theorem map_eq_ok_iff {change : α → β} {first : Except ε α} {result : β}
    : change <$> first = .ok result ↔ ∃ value, first = .ok value ∧ change value = result := by
  cases first <;> simp [Functor.map, Except.map]

theorem map_eq_error_iff {change : α → β} {first : Except ε α} {fault : ε}
    : change <$> first = .error fault ↔ first = .error fault := by
  cases first <;> simp [Functor.map, Except.map]

theorem mapError_ok (change : ε → δ) (result : α)
    : (Except.ok result).mapError change = .ok result :=
  rfl

theorem mapError_error (change : ε → δ) (fault : ε)
    : (.error fault : Except ε α).mapError change = .error (change fault) :=
  rfl

/-- Reports can be changed after both steps or after each of them. -/
theorem bind_mapError (change : ε → δ) (first : Except ε α) (next : α → Except ε β)
    : (first.mapError change >>= fun value => (next value).mapError change)
      = (first >>= next).mapError change := by
  cases first <;> rfl

theorem map_mapError (change : ε → δ) (convert : α → β) (first : Except ε α)
    : convert <$> first.mapError change = (convert <$> first).mapError change := by
  cases first <;> rfl

/-- Items can be related to some list exactly if each of them is related to something, by
induction over them.
-/
theorem exists_forall₂_iff {related : α → β → Prop} {items : List α}
    : (∃ results, List.Forall₂ related items results)
      ↔ ∀ item ∈ items, ∃ result, related item result := by
  induction items with
  | nil => simp
  | cons item items ih =>
      rw [List.forall_mem_cons, ← ih]
      constructor
      · intro ⟨_, all⟩
        obtain ⟨result, results, first, below, _⟩ := List.forall₂_cons_left_iff.mp all
        exact ⟨⟨result, first⟩, results, below⟩
      · intro ⟨⟨result, first⟩, results, below⟩
        exact ⟨result :: results, .cons first below⟩

/-- Every result is related to some item, by induction over them. -/
theorem exists_of_forall₂_right {related : α → β → Prop} {items : List α} {results : List β}
    (all : List.Forall₂ related items results) {result : β} (member : result ∈ results)
    : ∃ item ∈ items, related item result := by
  induction all with
  | nil => cases member
  | @cons item _ items results first below ih =>
      rcases List.mem_cons.mp member with rfl | later
      · exact ⟨item, List.mem_cons_self, first⟩
      · obtain ⟨item, isItem, holds⟩ := ih later
        exact ⟨item, List.mem_cons_of_mem _ isItem, holds⟩

/-- Relations of lists are composed item by item, by induction over them. -/
theorem forall₂_comp {first : α → β → Prop} {second : β → δ → Prop} {both : α → δ → Prop}
    {lefts : List α} {middles : List β} {rights : List δ}
    (all : List.Forall₂ first lefts middles) (others : List.Forall₂ second middles rights)
    (each
      : ∀ middle ∈ middles,
          ∀ left right, first left middle → second middle right → both left right)
    : List.Forall₂ both lefts rights := by
  induction all generalizing rights with
  | nil =>
      cases others
      exact .nil
  | cons related _ ih =>
      obtain ⟨here, later⟩ := List.forall_mem_cons.mp each
      cases others with
      | cons other others => exact .cons (here _ _ related other) (ih others later)

/-- A relation of lists becomes another one where each of its results does. -/
theorem forall₂_imp_of_mem {related other : α → β → Prop} {items : List α} {results : List β}
    (all : List.Forall₂ related items results)
    (each : ∀ result ∈ results, ∀ item, related item result → other item result)
    : List.Forall₂ other items results := by
  have same : List.Forall₂ Eq results results := List.forall₂_same.mpr (fun _ _ => rfl)
  refine forall₂_comp all same ?_
  rintro result member item _ holds rfl
  exact each result member item holds

/-- A list is found again from what its items are related to, if each item is, by induction. -/
theorem map_eq_of_forall₂ {related : α → β → Prop} {back : β → α} {items : List α}
    {results : List β} (all : List.Forall₂ related items results)
    (each : ∀ item ∈ items, ∀ result, related item result → back result = item)
    : results.map back = items := by
  induction all with
  | nil => rfl
  | @cons item result items results first below ih =>
      obtain ⟨same, later⟩ := List.forall_mem_cons.mp each
      rw [List.map_cons, same result first, ih later]

/-- A traversal succeeds exactly if all items do, by induction over them. -/
theorem mapM_eq_ok_iff {visit : α → Except ε β} {items : List α} {results : List β}
    : items.mapM visit = .ok results
      ↔ List.Forall₂ (fun item result => visit item = .ok result) items results := by
  induction items generalizing results with
  | nil => simp [pure, Except.pure, eq_comm]
  | cons item items ih =>
      simp only [List.mapM_cons, bind_eq_ok_iff, List.forall₂_cons_left_iff]
      constructor
      · intro ⟨result, visited, behind, below, same⟩
        exact ⟨result, behind, visited, ih.mp below, (Except.ok.inj same).symm⟩
      · intro ⟨result, behind, visited, below, same⟩
        exact ⟨result, visited, behind, ih.mpr below, same ▸ rfl⟩

/-- Reports can be changed after a traversal or at each item, by induction over the items. -/
theorem mapM_mapError (change : ε → δ) (visit : α → Except ε β) (items : List α)
    : items.mapM (fun item => (visit item).mapError change)
      = (items.mapM visit).mapError change := by
  induction items with
  | nil => rfl
  | cons item items ih =>
      rw [List.mapM_cons, List.mapM_cons, ih, ← bind_mapError]
      congr 1
      funext result
      exact bind_mapError change (items.mapM visit) (fun results => .ok (result :: results))

/-- A traversal fails exactly with what the first failing item reports, by induction. -/
theorem mapM_eq_error_iff {visit : α → Except ε β} {items : List α} {fault : ε}
    : items.mapM visit = .error fault
      ↔ ∃ before item behind,
          items = before ++ item :: behind
          ∧ (∀ earlier ∈ before, ∃ result, visit earlier = .ok result)
          ∧ visit item = .error fault := by
  induction items with
  | nil => simp [pure, Except.pure]
  | cons head rest ih =>
      rw [List.mapM_cons, bind_eq_error_iff]
      constructor
      · intro failed
        rcases failed with failed | ⟨result, visited, failed⟩
        · exact ⟨[], head, rest, rfl, by simp, failed⟩
        · rcases bind_eq_error_iff.mp failed with below | ⟨_, _, impossible⟩
          · obtain ⟨before, item, behind, rfl, earlier, failed⟩ := ih.mp below
            refine ⟨head :: before, item, behind, rfl, ?_, failed⟩
            exact List.forall_mem_cons.mpr ⟨⟨result, visited⟩, earlier⟩
          · cases impossible
      · intro ⟨before, item, behind, same, earlier, failed⟩
        cases before with
        | nil =>
            obtain ⟨rfl, rfl⟩ := List.cons.inj same
            exact Or.inl failed
        | cons first before =>
            obtain ⟨rfl, rfl⟩ := List.cons.inj same
            obtain ⟨⟨result, visited⟩, below⟩ := List.forall_mem_cons.mp earlier
            refine Or.inr ⟨result, visited, bind_eq_error_iff.mpr (Or.inl ?_)⟩
            exact ih.mpr ⟨before, item, behind, rfl, below, failed⟩

end TableQuery
