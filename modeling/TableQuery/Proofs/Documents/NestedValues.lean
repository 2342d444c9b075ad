import TableQuery.Json.Writer

/-! Values inside of values.
How deep a document is nested, and what holds for every value in it, is said through the values
that it is made of.  A value in order with no floating-point number in it is one that its text
determines.
-/

namespace TableQuery

namespace Json

/-- A value is the given one or somewhere inside of it. -/
inductive Within : Json → Json → Prop
  | self (value : Json) : Within value value
  | item {inner item items} (member : item ∈ items) (within : Within inner item)
    : Within inner (.array items)
  | member {inner name value members} (member : (name, value) ∈ members)
    (within : Within inner value)
    : Within inner (.object members)

/-- A value and all values inside of it have a property. -/
def Everywhere (p : Json → Prop) (value : Json) : Prop :=
  ∀ inner, Within inner value → p inner

/-- A value without floating-point numbers: all its numbers are integers. -/
def IsExact (value : Json) : Prop :=
  value.Everywhere (fun inner => ∀ number, inner ≠ .number (.double number))

/-- A value whose objects have their members in ascending order, each name once. -/
def IsOrdered (value : Json) : Prop :=
  value.Everywhere (fun inner => ∀ members, inner = .object members → Ascending members)

-----------------------------------------------------------------------------------------
-- Depth
-----------------------------------------------------------------------------------------

mutual

/-- How many arrays and objects are open at the same time where most of them are. -/
def depth : Json → Nat
  | null | bool _ | number _ | string _ => 0
  | array items => itemsDepth items + 1
  | object members => membersDepth members + 1

def itemsDepth : List Json → Nat
  | [] => 0
  | first :: rest => max first.depth (itemsDepth rest)

def membersDepth : List (String × Json) → Nat
  | [] => 0
  | (_, first) :: rest => max first.depth (membersDepth rest)

end

variable {value item : Json} {items : List Json} {members : List (String × Json)}
  {limit : Nat}

/-- Items are within a depth if each of them is, by induction over them. -/
theorem itemsDepth_le_iff : itemsDepth items ≤ limit ↔ ∀ item ∈ items, item.depth ≤ limit := by
  induction items with
  | nil => simp [itemsDepth]
  | cons first rest ih => rw [itemsDepth, Nat.max_le, ih, List.forall_mem_cons]

/-- Members are within a depth if their values are, by induction over them. -/
theorem membersDepth_le_iff
    : membersDepth members ≤ limit ↔ ∀ member ∈ members, member.2.depth ≤ limit := by
  induction members with
  | nil => simp [membersDepth]
  | cons first rest ih => rw [membersDepth, Nat.max_le, ih, List.forall_mem_cons]

/-- An item is less deep than its array. -/
theorem depth_lt_of_item (member : item ∈ items) : item.depth < (array items).depth :=
  Nat.lt_succ_of_le (itemsDepth_le_iff.mp (Nat.le_refl _) item member)

/-- A member's value is less deep than its object. -/
theorem depth_lt_of_member {name : String} (member : (name, value) ∈ members)
    : value.depth < (object members).depth :=
  Nat.lt_succ_of_le (membersDepth_le_iff.mp (Nat.le_refl _) (name, value) member)

/-- An array is at most one deeper than its items. -/
theorem depth_array_le (shallow : ∀ item ∈ items, item.depth ≤ limit)
    : (array items).depth ≤ limit + 1 :=
  Nat.succ_le_succ (itemsDepth_le_iff.mpr shallow)

/-- An object is at most one deeper than its values. -/
theorem depth_object_le (shallow : ∀ member ∈ members, member.2.depth ≤ limit)
    : (object members).depth ≤ limit + 1 :=
  Nat.succ_le_succ (membersDepth_le_iff.mpr shallow)

/-- Where an array or an object fits, there is a level for it. -/
theorem exists_eq_succ_of_depth (shallow : value.depth ≤ limit) (nested : 0 < value.depth)
    : ∃ inner, limit = inner + 1 :=
  Nat.exists_eq_add_one.mpr (Nat.lt_of_lt_of_le nested shallow)

/-- What holds for an array or an object if it holds for all that stands directly inside holds
for every value, by induction on the depth.
-/
theorem inductionOn {motive : Json → Prop} (value : Json) (null : motive .null)
    (bool : ∀ value, motive (.bool value)) (number : ∀ number, motive (.number number))
    (string : ∀ text, motive (.string text))
    (array : ∀ items, (∀ item ∈ items, motive item) → motive (.array items))
    (object : ∀ members, (∀ member ∈ members, motive member.2) → motive (.object members))
    : motive value := by
  induction depth : value.depth using Nat.strongRecOn generalizing value with
  | ind _ ih =>
      subst depth
      cases value with
      | null => exact null
      | bool value => exact bool value
      | number value => exact number value
      | string text => exact string text
      | array items =>
          exact array items (fun item member => ih _ (depth_lt_of_item member) item rfl)
      | object members =>
          exact object members (fun entry member =>
            ih _ (depth_lt_of_member member) entry.2 rfl)

-----------------------------------------------------------------------------------------
-- Properties of all values inside
-----------------------------------------------------------------------------------------

section Everywhere

variable {p : Json → Prop}

theorem Everywhere.here (everywhere : value.Everywhere p) : p value :=
  everywhere value (.self value)

theorem Everywhere.of_item (everywhere : (array items).Everywhere p) (member : item ∈ items)
    : item.Everywhere p :=
  fun inner within => everywhere inner (.item member within)

theorem Everywhere.of_member (everywhere : (object members).Everywhere p) {name : String}
    (member : (name, value) ∈ members)
    : value.Everywhere p :=
  fun inner within => everywhere inner (.member member within)

/-- Inside of a scalar there is nothing but the scalar. -/
theorem everywhere_scalar (scalar : value.depth = 0) (here : p value)
    : value.Everywhere p := by
  intro inner within
  cases within with
  | self => exact here
  | item | member => cases scalar

theorem everywhere_array (here : p (array items)) (inside : ∀ item ∈ items, item.Everywhere p)
    : (array items).Everywhere p := by
  intro inner within
  cases within with
  | self => exact here
  | item member within => exact inside _ member inner within

theorem everywhere_object (here : p (object members))
    (inside : ∀ member ∈ members, member.2.Everywhere p)
    : (object members).Everywhere p := by
  intro inner within
  cases within with
  | self => exact here
  | member member within => exact inside _ member inner within

end Everywhere

theorem isExact_integer {number : Int}
    (bounds : -(Nat.pow 2 63) ≤ number ∧ number < Nat.pow 2 64)
    : (Json.number (.integer number bounds)).IsExact :=
  everywhere_scalar rfl (by simp)

/-- A scalar is in order, because there are no objects inside of it. -/
theorem isOrdered_scalar (scalar : value.depth = 0) : value.IsOrdered := by
  refine everywhere_scalar scalar ?_
  rintro members rfl
  cases scalar

/-- An array is in order if its items are. -/
theorem isOrdered_array (ordered : ∀ item ∈ items, item.IsOrdered)
    : (array items).IsOrdered :=
  everywhere_array nofun ordered

/-- An object is in order if its members and their values are. -/
theorem isOrdered_object (ascending : Ascending members)
    (ordered : ∀ member ∈ members, member.2.IsOrdered)
    : (object members).IsOrdered := by
  refine everywhere_object ?_ ordered
  rintro _ ⟨⟩
  exact ascending

end Json

namespace OrderedMap

variable {α : Type}

/-- A binding of a name behind all others is put at the end, by induction over the entries. -/
theorem insertEntry_of_lt {entries : List (String × α)} {name : String} (value : α)
    (above : ∀ entry ∈ entries, entry.1 < name)
    : insertEntry name value entries = entries ++ [(name, value)] := by
  induction entries with
  | nil => rfl
  | cons head rest ih =>
      obtain ⟨other, kept⟩ := head
      obtain ⟨less, restAbove⟩ := List.forall_mem_cons.mp above
      have different : name ≠ other := by
        rintro rfl
        exact String.lt_irrefl name less
      rw [insertEntry, if_neg (String.lt_asymm less), if_neg different, ih restAbove]
      rfl

/-- Bindings in ascending order are put behind each other, by induction over them. -/
theorem entries_foldl_insert (map : OrderedMap α) (bindings : List (String × α))
    (ascending : Ascending (map.entries ++ bindings))
    : (bindings.foldl (fun map binding => map.insert binding.1 binding.2) map).entries
      = map.entries ++ bindings := by
  induction bindings generalizing map with
  | nil => simp
  | cons binding more ih =>
      have above : ∀ entry ∈ map.entries, entry.1 < binding.1 := fun entry member =>
        (List.pairwise_append.mp ascending).2.2 entry member binding List.mem_cons_self
      have inserted : (map.insert binding.1 binding.2).entries = map.entries ++ [binding] :=
        insertEntry_of_lt binding.2 above
      rw [List.foldl_cons, ih, inserted, List.append_assoc, List.singleton_append]
      rwa [inserted, List.append_assoc, List.singleton_append]

/-- Bindings in ascending order make a map of exactly these bindings. -/
theorem entries_ofList {bindings : List (String × α)} (ascending : Ascending bindings)
    : (ofList bindings).entries = bindings :=
  entries_foldl_insert empty bindings ascending

/-- A map is made again of its own bindings. -/
theorem ofList_entries (map : OrderedMap α) : ofList map.entries = map :=
  OrderedMap.ext (entries_ofList map.ascending)

/-- Insertions add no bindings but their own, by induction over them. -/
theorem mem_of_mem_foldl_insert {map : OrderedMap α} {bindings : List (String × α)}
    {entry : String × α}
    (member
      : entry
        ∈ (bindings.foldl (fun map binding => map.insert binding.1 binding.2) map).entries)
    : entry ∈ map.entries ∨ entry ∈ bindings := by
  induction bindings generalizing map with
  | nil => exact Or.inl member
  | cons binding more ih =>
      rcases ih member with inserted | later
      · rcases mem_of_mem_insertEntry inserted with same | old
        · exact Or.inr (same ▸ List.mem_cons_self)
        · exact Or.inl old
      · exact Or.inr (List.mem_cons_of_mem _ later)

/-- A map made of bindings holds no others. -/
theorem mem_of_mem_ofList {bindings : List (String × α)} {entry : String × α}
    (member : entry ∈ (ofList bindings).entries)
    : entry ∈ bindings := by
  rcases mem_of_mem_foldl_insert member with none | bound
  · cases none
  · exact bound

end OrderedMap

end TableQuery
