/-! Maps from names to values, kept in ascending order of their names.
The order is the one of code points.  Two maps with the same bindings are equal, because
nothing but the bindings is stored.
-/

namespace TableQuery

/-- Names in strictly ascending order, hence each at most once. -/
abbrev Ascending {α : Type} (entries : List (String × α)) : Prop :=
  entries.Pairwise (fun left right => left.1 < right.1)

/-- Bindings in ascending order of their names. -/
@[ext]
structure OrderedMap (α : Type) where
  entries : List (String × α)
  ascending : Ascending entries

namespace OrderedMap

variable {α β : Type}

/-- Of two names that are not in order and not the same, the second comes first. -/
theorem lt_of_not_lt_of_ne {left right : String} (notLess : ¬ left < right)
    (different : left ≠ right)
    : right < left := by
  apply Decidable.byContradiction
  intro notGreater
  exact different
    (String.le_antisymm (String.not_lt.mp notGreater) (String.not_lt.mp notLess))

/-- Puts a binding in its place, instead of an earlier one of the same name. -/
def insertEntry (name : String) (value : α) : List (String × α) → List (String × α)
  | [] => [(name, value)]
  | (other, kept) :: rest =>
      if name < other then (name, value) :: (other, kept) :: rest
      else if name = other then (name, value) :: rest
      else (other, kept) :: insertEntry name value rest

/-- Every binding after an insertion is the new one or an old one, by induction. -/
theorem mem_of_mem_insertEntry {name : String} {value : α} {entries : List (String × α)}
    {entry : String × α} (member : entry ∈ insertEntry name value entries)
    : entry = (name, value) ∨ entry ∈ entries := by
  induction entries with
  | nil => simpa [insertEntry] using member
  | cons head rest ih =>
      obtain ⟨other, kept⟩ := head
      simp only [insertEntry] at member
      split at member
      · simpa using member
      · split at member
        · rcases List.mem_cons.mp member with same | below
          · exact Or.inl same
          · exact Or.inr (List.mem_cons_of_mem _ below)
        · rcases List.mem_cons.mp member with same | below
          · exact Or.inr (by simp [same])
          · exact (ih below).imp_right (List.mem_cons_of_mem _)

/-- An insertion keeps the names in order, by induction. -/
theorem ascending_insertEntry {entries : List (String × α)} (ascending : Ascending entries)
    (name : String) (value : α)
    : Ascending (insertEntry name value entries) := by
  induction entries with
  | nil => simp [insertEntry]
  | cons head rest ih =>
      obtain ⟨other, kept⟩ := head
      obtain ⟨above, ordered⟩ := List.pairwise_cons.mp ascending
      simp only [insertEntry]
      split
      · rename_i less
        refine List.pairwise_cons.mpr ⟨?_, ascending⟩
        intro entry member
        rcases List.mem_cons.mp member with same | below
        · simpa [same] using less
        · exact String.lt_trans less (above entry below)
      · split
        · rename_i same
          subst same
          exact List.pairwise_cons.mpr ⟨above, ordered⟩
        · rename_i notLess different
          refine List.pairwise_cons.mpr ⟨?_, ih ordered⟩
          intro entry member
          rcases mem_of_mem_insertEntry member with same | below
          · simpa [same] using lt_of_not_lt_of_ne notLess different
          · exact above entry below

/-- The map without bindings. -/
def empty : OrderedMap α where
  entries := []
  ascending := .nil

/-- Binds a name, instead of what it was bound to before. -/
def insert (map : OrderedMap α) (name : String) (value : α) : OrderedMap α where
  entries := insertEntry name value map.entries
  ascending := ascending_insertEntry map.ascending name value

/-- What a name is bound to. -/
def get? (map : OrderedMap α) (name : String) : Option α :=
  (map.entries.find? (fun entry => entry.1 == name)).map Prod.snd

/-- The bound names in ascending order. -/
def keys (map : OrderedMap α) : List String :=
  map.entries.map Prod.fst

@[simp]
theorem get?_empty (name : String) : (empty : OrderedMap α).get? name = none := rfl

/-- Looking a name up after an insertion finds the new value, or else what was there
before, by induction over the entries.
-/
theorem get?_insert (map : OrderedMap α) (name other : String) (value : α)
    : (map.insert name value).get? other
      = if other = name then some value else map.get? other := by
  simp only [get?, insert]
  induction map.entries with
  | nil =>
      by_cases same : other = name
      · simp [insertEntry, same]
      · simp [insertEntry, same, Ne.symm same]
  | cons head rest ih =>
      obtain ⟨first, kept⟩ := head
      simp only [insertEntry]
      by_cases same : other = name
      · subst same
        split
        · simp
        · split
          · simp
          · rename_i different
            simpa [Ne.symm different] using ih
      · split
        · simp [Ne.symm same]
        · split
          · rename_i equal
            subst equal
            simp [Ne.symm same]
          · by_cases found : first = other
            · simp [found]
            · simpa [found, same] using ih

/-- The bound names are those that a look-up finds. -/
theorem mem_keys_iff (map : OrderedMap α) (name : String)
    : name ∈ map.keys ↔ (map.get? name).isSome := by
  simp only [keys, get?, Option.isSome_map, List.find?_isSome, List.mem_map, beq_iff_eq]

/-- The bound names are in strictly ascending order, because the entries are. -/
theorem pairwise_keys (map : OrderedMap α) : map.keys.Pairwise (· < ·) :=
  List.pairwise_map.mpr map.ascending

/-- Inserts bindings one after the other, so the last one of a name stays. -/
def ofList (bindings : List (String × α)) : OrderedMap α :=
  bindings.foldl (fun map binding => map.insert binding.1 binding.2) empty

end OrderedMap

end TableQuery
