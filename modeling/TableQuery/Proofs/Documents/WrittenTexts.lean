import Mathlib.Data.List.Forall2
import TableQuery.Proofs.Documents.NestedValues

/-! Which texts stand for a value.
The format leaves open how a character of a string is spelled.  Blanks and floating-point
numbers, which the format allows too, are left out here.  The compact text of a value stands
for the value.
-/

namespace TableQuery

namespace Json

-----------------------------------------------------------------------------------------
-- The format
-----------------------------------------------------------------------------------------

/-- The letters that stand for a character behind a backslash. -/
def escapeLetters : List (Char × Char) :=
  [('"', '"'), ('\\', '\\'), ('/', '/'), ('b', '\x08'), ('f', '\x0c'), ('n', '\n'),
    ('r', '\r'), ('t', '\t')]

/-- A hexadecimal digit of either case. -/
def IsHexDigit (c : Char) (value : Nat) : Prop :=
  value < 16 ∧ (c = Nat.digitChar value ∨ c = (Nat.digitChar value).toUpper)

/-- What may be written between quotes for a character. -/
inductive SpellsChar : List Char → Char → Prop
  | plain {c : Char} (notQuote : c ≠ '"') (notBackslash : c ≠ '\\')
    (notControl : 0x20 ≤ c.toNat)
    : SpellsChar [c] c
  | letter {letter c : Char} (stands : (letter, c) ∈ escapeLetters)
    : SpellsChar ['\\', letter] c
  | numbered {first second third fourth c : Char} {a b d e : Nat}
    (isFirst : IsHexDigit first a) (isSecond : IsHexDigit second b)
    (isThird : IsHexDigit third d) (isFourth : IsHexDigit fourth e)
    (code : c.toNat = ((a * 16 + b) * 16 + d) * 16 + e)
    : SpellsChar ['\\', 'u', first, second, third, fourth] c

/-- A string is written between quotes, character by character. -/
inductive SpellsString : List Char → String → Prop
  | intro {spelled : List (List Char)} {text : String}
    (each : List.Forall₂ SpellsChar spelled text.toList)
    : SpellsString ('"' :: spelled.flatten ++ ['"']) text

/-- A member of an object is written as its name, a colon and its value. -/
inductive SpellsMember (stands : List Char → Json → Prop) : List Char → String × Json → Prop
  | intro {spelled written : List Char} {name : String} {value : Json}
    (isName : SpellsString spelled name) (isValue : stands written value)
    : SpellsMember stands (spelled ++ ':' :: written) (name, value)

/-- A text stands for a value. -/
inductive StandsFor : List Char → Json → Prop
  | null : StandsFor ['n', 'u', 'l', 'l'] .null
  | true : StandsFor ['t', 'r', 'u', 'e'] (.bool true)
  | false : StandsFor ['f', 'a', 'l', 's', 'e'] (.bool false)
  | integer {value : Int} (bounds : -(Nat.pow 2 63) ≤ value ∧ value < Nat.pow 2 64)
    : StandsFor (toString value).toList (.number (.integer value bounds))
  | string {written : List Char} {text : String} (spelled : SpellsString written text)
    : StandsFor written (.string text)
  | array {written : List (List Char)} {items : List Json}
    (each : List.Forall₂ StandsFor written items)
    : StandsFor (enclose '[' ']' written) (.array items)
  | object {written : List (List Char)} {members : List (String × Json)}
    (each : List.Forall₂ (SpellsMember StandsFor) written members)
    : StandsFor (enclose '\x7b' '\x7d' written) (.object members)

-----------------------------------------------------------------------------------------
-- The compact text
-----------------------------------------------------------------------------------------

theorem isHexDigit_digitChar {digit : Nat} (less : digit < 16)
    : IsHexDigit (Nat.digitChar digit) digit :=
  ⟨less, Or.inl rfl⟩

/-- Every character is spelled by what is written for it, by the kinds of escapes. -/
theorem spellsChar_escape (c : Char) : SpellsChar (escape c) c := by
  fun_cases escape c with
  | case1 | case2 | case3 | case4 | case5 | case6 | case7 => exact .letter (by decide)
  | case8 _ control =>
      rw [if_pos control]
      have zero : IsHexDigit '0' 0 := isHexDigit_digitChar (by decide)
      have high : IsHexDigit _ (c.toNat / 16) := isHexDigit_digitChar (by omega)
      have low : IsHexDigit _ (c.toNat % 16) := isHexDigit_digitChar (by omega)
      exact .numbered zero zero high low (by omega)
  | case9 _ notControl notQuote notBackslash =>
      rw [if_neg notControl]
      exact .plain notQuote notBackslash (Nat.le_of_not_lt notControl)

theorem spellsString_renderString (text : String) : SpellsString (renderString text) text := by
  rw [renderString, List.flatMap]
  refine .intro ?_
  rw [List.forall₂_map_left_iff, List.forall₂_same]
  exact fun c _ => spellsChar_escape c

/-- An integer is written by its sign and its digits. -/
theorem toList_toString (value : Int)
    : (toString value).toList
      = (if value < 0 then ['-'] else []) ++ Nat.toDigits 10 value.natAbs := by
  cases value with
  | ofNat n =>
      have digits : (toString (Int.ofNat n)).toList = Nat.toDigits 10 n := Nat.toList_repr
      have notNegative : ¬ Int.ofNat n < 0 := Int.not_lt.mpr (Int.natCast_nonneg n)
      rw [digits, if_neg notNegative]
      rfl
  | negSucc n =>
      have digits : (toString (Int.negSucc n)).toList = '-' :: Nat.toDigits 10 (n + 1) := by
        change ("-" ++ (n + 1).repr).toList = _
        rw [String.toList_append, Nat.toList_repr]
        rfl
      rw [digits, if_pos (Int.negSucc_lt_zero n)]
      rfl

theorem compactItems_eq (items : List Json) : compactItems items = items.map compactChars := by
  induction items with
  | nil => rfl
  | cons first rest ih => rw [compactItems, ih, List.map_cons]

theorem compactMembers_eq (members : List (String × Json))
    : compactMembers members
      = members.map (fun member => renderString member.1 ++ ':' :: member.2.compactChars) := by
  induction members with
  | nil => rfl
  | cons first rest ih => rw [compactMembers, ih, List.map_cons]

/-- The compact text of a value without floating-point numbers stands for the value, by
induction on the value.
-/
theorem standsFor_compactChars {value : Json} (isExact : value.IsExact)
    : StandsFor value.compactChars value := by
  induction value using inductionOn with
  | null => exact .null
  | bool value =>
      cases value with
      | true => exact .true
      | false => exact .false
  | number number =>
      cases number with
      | integer value bounds =>
          rw [compactChars, JsonNumber.render, ← toList_toString]
          exact .integer bounds
      | double value => exact absurd rfl (isExact.here value)
  | string text => exact .string (spellsString_renderString text)
  | array items ih =>
      rw [compactChars, compactItems_eq]
      refine .array ?_
      rw [List.forall₂_map_left_iff, List.forall₂_same]
      exact fun item member => ih item member (isExact.of_item member)
  | object members ih =>
      rw [compactChars, compactMembers_eq]
      refine .object ?_
      rw [List.forall₂_map_left_iff, List.forall₂_same]
      rintro ⟨name, value⟩ member
      exact .intro (spellsString_renderString name)
        (ih (name, value) member (isExact.of_member member))

end Json

end TableQuery
