import TableQuery.Json
import TableQuery.Binary64.Decimal

/-! Writing JSON values as text.
Strings are written with as few escapes as the format allows.  The compact form has no
blanks; the indented form gives every item and member a line of its own.
-/

namespace TableQuery

/-- Between lists a separator stands in front of each but the first. -/
theorem intercalate_cons {α : Type} (separator first : List α) (more : List (List α))
    : separator.intercalate (first :: more) = first ++ more.flatMap (separator ++ ·) := by
  induction more generalizing first with
  | nil => simp
  | cons next more ih => simp [ih]

namespace JsonNumber

/-- The text of a number, in decimal digits. -/
def render : JsonNumber → List Char
  | integer value _ =>
      (if value < 0 then ['-'] else []) ++ Nat.toDigits 10 value.natAbs
  | double value => value.render

end JsonNumber

namespace Json

/-- A character inside a string: quote, backslash and control characters are escaped. -/
def escape (c : Char) : List Char :=
  match c with
  | '"' => ['\\', '"']
  | '\\' => ['\\', '\\']
  | '\x08' => ['\\', 'b']
  | '\x0c' => ['\\', 'f']
  | '\n' => ['\\', 'n']
  | '\r' => ['\\', 'r']
  | '\t' => ['\\', 't']
  | _ =>
      if c.toNat < 0x20 then
        ['\\', 'u', '0', '0', Nat.digitChar (c.toNat / 16), Nat.digitChar (c.toNat % 16)]
      else
        [c]

def renderString (text : String) : List Char :=
  '"' :: text.toList.flatMap escape ++ ['"']

def renderBool : Bool → List Char
  | true => ['t', 'r', 'u', 'e']
  | false => ['f', 'a', 'l', 's', 'e']

def renderNull : List Char :=
  ['n', 'u', 'l', 'l']

-------------------------------------------------------------------------------
-- The compact form
-------------------------------------------------------------------------------

/-- Elements with commas between them, in brackets or braces. -/
def enclose (opening closing : Char) (elements : List (List Char)) : List Char :=
  opening :: [','].intercalate elements ++ [closing]

mutual

/-- The characters of a value without blanks. -/
def compactChars : Json → List Char
  | null => renderNull
  | bool value => renderBool value
  | number value => value.render
  | string text => renderString text
  | array items => enclose '[' ']' (compactItems items)
  | object members => enclose '\x7b' '\x7d' (compactMembers members)

def compactItems : List Json → List (List Char)
  | [] => []
  | first :: rest => first.compactChars :: compactItems rest

def compactMembers : List (String × Json) → List (List Char)
  | [] => []
  | (name, first) :: rest =>
      (renderString name ++ ':' :: first.compactChars) :: compactMembers rest

end

/-- A value as one line without blanks. -/
def compact (value : Json) : String :=
  String.ofList value.compactChars

-------------------------------------------------------------------------------
-- The indented form
-------------------------------------------------------------------------------

/-- A new line at a nesting depth, two blanks for each level. -/
def newline (depth : Nat) : List Char :=
  '\n' :: List.replicate (2 * depth) ' '

/-- Elements on lines of their own, one level deeper than the brackets or braces.
Without elements the brackets stay on one line.
-/
def encloseLines (depth : Nat) (opening closing : Char) : List (List Char) → List Char
  | [] => [opening, closing]
  | first :: rest =>
      let lines := (first :: rest).map (newline (depth + 1) ++ ·)
      opening :: [','].intercalate lines ++ newline depth ++ [closing]

mutual

/-- The characters of a value at a nesting depth. -/
def indentedChars (depth : Nat) : Json → List Char
  | null => renderNull
  | bool value => renderBool value
  | number value => value.render
  | string text => renderString text
  | array items => encloseLines depth '[' ']' (indentedItems (depth + 1) items)
  | object members =>
      encloseLines depth '\x7b' '\x7d' (indentedMembers (depth + 1) members)

def indentedItems (depth : Nat) : List Json → List (List Char)
  | [] => []
  | first :: rest => first.indentedChars depth :: indentedItems depth rest

def indentedMembers (depth : Nat) : List (String × Json) → List (List Char)
  | [] => []
  | (name, first) :: rest =>
      (renderString name ++ ':' :: ' ' :: first.indentedChars depth)
        :: indentedMembers depth rest

end

/-- A value over several lines, without a newline at the end. -/
def indented (value : Json) : String :=
  String.ofList (value.indentedChars 0)

end Json

end TableQuery
