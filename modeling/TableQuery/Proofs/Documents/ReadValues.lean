import TableQuery.Json.Standard
import TableQuery.Proofs.Documents.HeldValues

/-! What is read from a text has the members of its objects in order.
Readers put the members of an object in order themselves, so this holds for every text.
-/

namespace TableQuery

variable {ε α β : Type}

-----------------------------------------------------------------------------------------
-- Properties of results
-----------------------------------------------------------------------------------------

/-- What a computation gives has a property, unless it fails. -/
def Yields (p : α → Prop) : Except ε α → Prop
  | .ok value => p value
  | .error _ => True

section Yields

variable {p : α → Prop} {q : β → Prop} {result : Except ε α}

theorem Yields.of_eq_ok {value : α} (yields : Yields p result) (ok : result = .ok value)
    : p value := by
  subst ok
  exact yields

theorem yields_any (result : Except ε α) : Yields (fun _ => True) result := by
  cases result <;> trivial

theorem Yields.map (yields : Yields p result) {convert : α → β}
    (converts : ∀ value, p value → q (convert value))
    : Yields q (result.map convert) := by
  cases result with
  | error fault => trivial
  | ok value => exact converts value yields

end Yields

-----------------------------------------------------------------------------------------
-- Readers
-----------------------------------------------------------------------------------------

namespace Json

/-- The value that a reading gives has a property, unless the reading fails. -/
def ReadingYields (p : α → Prop) {text : List Char} (reading : Reading α text) : Prop :=
  Yields (fun read => p read.1) reading

/-- Every value that a reader gives has a property. -/
def ReadsOnly (p : α → Prop) (reader : Reader α) : Prop :=
  ∀ c rest, ReadingYields p (reader c rest)

section Readers

variable {p : α → Prop} {reader : Reader α}

theorem ReadingYields.of_eq_ok {text : List Char} {reading : Reading α text}
    (yields : ReadingYields p reading) {value : α} {rest : Rest text}
    (ok : reading = .ok (value, rest))
    : p value := by
  subst ok
  exact yields

/-- A reading has a property still where it is part of a longer one. -/
theorem ReadingYields.embed {q : β → Prop} {inner outer : List Char}
    {reading : Reading α inner} (yields : ReadingYields p reading) {convert : α → β}
    (converts : ∀ value, p value → q (convert value)) (le : inner.length ≤ outer.length)
    : ReadingYields q (embed convert le reading) :=
  Yields.map yields (fun read holds => converts read.1 holds)

theorem yields_embed_any {inner outer : List Char} {reading : Reading β inner}
    {convert : β → α} (holds : ∀ value, p (convert value))
    (le : inner.length ≤ outer.length)
    : ReadingYields p (embed convert le reading) :=
  (yields_any reading).map (fun read _ => holds read.1)

theorem ReadsOnly.behindBlanks (only : ReadsOnly p reader) (text : List Char)
    : ReadingYields p (readBehindBlanks reader text) := by
  rw [readBehindBlanks]
  split
  · trivial
  · exact (only _ _).embed (fun _ holds => holds) _

/-- The elements behind the first one have the property, by induction on their reading. -/
theorem ReadsOnly.further (only : ReadsOnly p reader) (enclosure : Enclosure)
    (text : List Char)
    : ReadingYields (fun values => ∀ value ∈ values, p value)
        (readFurther enclosure reader text) := by
  fun_induction readFurther enclosure reader text with
  | case1 | case3 | case4 | case5 | case7 => trivial
  | case2 => exact List.forall_mem_nil p
  | case6 =>
      rename_i first _ _ read _ _ _ _ ih
      have holds : p first := (only _ _).of_eq_ok read
      exact ih.embed (fun _ hold => List.forall_mem_cons.mpr ⟨holds, hold⟩) _

theorem ReadsOnly.elements (only : ReadsOnly p reader) (enclosure : Enclosure)
    (text : List Char)
    : ReadingYields (fun values => ∀ value ∈ values, p value)
        (readElements enclosure reader text) := by
  fun_cases readElements enclosure reader text with
  | case1 | case3 => trivial
  | case2 => exact List.forall_mem_nil p
  | case4 =>
      rename_i first after _ read
      have holds : p first := (only _ _).of_eq_ok read
      exact (only.further enclosure after).embed
        (fun _ hold => List.forall_mem_cons.mpr ⟨holds, hold⟩) _

theorem ReadsOnly.memberValue (only : ReadsOnly p reader) (text : List Char)
    : ReadingYields p (readMemberValue reader text) := by
  fun_cases readMemberValue reader text with
  | case1 | case3 => trivial
  | case2 => exact (only.behindBlanks _).embed (fun _ holds => holds) _

theorem ReadsOnly.member (only : ReadsOnly p reader)
    : ReadsOnly (fun member => p member.2) (readMember reader) := by
  intro c rest
  fun_cases readMember reader c rest with
  | case1 | case3 => trivial
  | case2 =>
      refine (only.memberValue _).embed ?_ _
      exact fun _ holds => holds

/-- A map that is read binds nothing but values that were read. -/
theorem ReadsOnly.map (only : ReadsOnly p reader)
    : ReadsOnly (OrderedMap.All p) (readMap reader) := by
  intro c rest
  rw [readMap]
  split
  · have members := only.member.elements braces rest
    exact members.embed (fun _ hold => OrderedMap.all_ofList hold) _
  · trivial

theorem ReadsOnly.sequence (only : ReadsOnly p reader)
    : ReadsOnly (fun items => ∀ item ∈ items, p item) (readSequence reader) := by
  intro c rest
  rw [readSequence]
  split
  · exact (only.elements brackets rest).embed (fun _ hold => hold) _
  · trivial

theorem ReadsOnly.text (only : ReadsOnly p reader) (text : String)
    : Yields p (readText reader text) := by
  rw [readText]
  -- What follows the value decides on a rejection but does not change the value.
  have behind := only.behindBlanks text.toList
  split
  · trivial
  · rename_i read
    split
    · exact behind.of_eq_ok read
    · trivial

end Readers

-----------------------------------------------------------------------------------------
-- Values in order
-----------------------------------------------------------------------------------------

theorem yields_readLiteral {p : Json → Prop} {value : Json} (holds : p value)
    (letters : List Char) (c : Char) (rest : List Char)
    : ReadingYields p (readLiteral value letters c rest) :=
  (yields_any _).map (fun _ _ => holds)

/-- A scalar is in order, because it holds no objects. -/
theorem readsOnly_readScalar : ReadsOnly IsOrdered readScalar := by
  intro c rest
  fun_cases readScalar c rest with
  | case1 | case2 | case3 => exact yields_readLiteral (isOrdered_scalar rfl) _ _ _
  | case4 | case5 | case6 => exact yields_embed_any (fun _ => isOrdered_scalar rfl) _
  | case7 => trivial

/-- Members that were read make an object in order if their values are in order. -/
theorem isOrdered_ofMembers {members : List (String × Json)}
    (ordered : ∀ member ∈ members, member.2.IsOrdered)
    : (ofMembers members).IsOrdered :=
  isOrdered_object (OrderedMap.ofList members).ascending (OrderedMap.all_ofList ordered)

/-- Every value that is read is in order, by induction on how deep it may be. -/
theorem readsOnly_readValue (depth : Nat) : ReadsOnly IsOrdered (readValue depth) := by
  induction depth with
  | zero =>
      intro c rest
      simp only [readValue]
      split
      · trivial
      · exact readsOnly_readScalar c rest
  | succ depth ih =>
      intro c rest
      simp only [readValue]
      split
      · exact (ih.elements brackets rest).embed (fun _ ordered => isOrdered_array ordered) _
      · split
        · have members := ih.member.elements braces rest
          exact members.embed (fun _ ordered => isOrdered_ofMembers ordered) _
        · exact readsOnly_readScalar c rest

theorem readsOnly_readTooDeep (p : α → Prop) (expected : Container)
    : ReadsOnly p (readTooDeep expected) := by
  intro c rest
  rw [readTooDeep]
  split <;> trivial

/-- Data that are read hold only values in order, by induction on the form. -/
theorem Form.readsOnly_reader (form : Form α) (depth : Nat)
    : ReadsOnly (form.Holds IsOrdered) (form.reader depth) := by
  induction form generalizing depth with
  | any => exact readsOnly_readValue depth
  | sequence item ih =>
      cases depth with
      | zero => exact readsOnly_readTooDeep _ .sequence
      | succ depth => exact (ih depth).sequence
  | map value ih =>
      cases depth with
      | zero => exact readsOnly_readTooDeep _ .map
      | succ depth => exact (ih depth).map

end Json

end TableQuery
