import TableQuery.Json.Fault

/-! Reading the values of a JSON text that hold no other values.
Every reader returns the part of the text behind what it read together with a proof that this
part is shorter, on which readers of arrays and objects end.
-/

namespace TableQuery.Json

/-- The part of a text that is left after at least one character was read. -/
abbrev Rest (text : List Char) := { rest : List Char // rest.length < text.length }

/-- What reading the beginning of a text gives. -/
abbrev Reading (α : Type) (text : List Char) := Except Fault (α × Rest text)

/-- Reads a value from its first character on, given that character and what follows it. -/
abbrev Reader (α : Type) := (c : Char) → (rest : List Char) → Reading α (c :: rest)

/-- The part of a text that is left, which may be all of it. -/
abbrev Remainder (text : List Char) := { rest : List Char // rest.length ≤ text.length }

/-- A reading of the end of a text as a reading of that text, with another value. -/
def embed {α β : Type} {inner outer : List Char} (convert : α → β)
    (le : inner.length ≤ outer.length) (reading : Reading α inner)
    : Reading β outer :=
  reading.map (fun (value, rest) => (convert value, ⟨rest.1, Nat.lt_of_lt_of_le rest.2 le⟩))

theorem length_le_length_cons (c : Char) (rest : List Char)
    : rest.length ≤ (c :: rest).length :=
  Nat.le_succ rest.length

/-- Whether a character may stand between the parts of a document. -/
def isBlank (c : Char) : Bool :=
  c == ' ' || c == '\n' || c == '\t' || c == '\r'

def skipBlanks (text : List Char) : List Char :=
  text.dropWhile isBlank

/-- Skipping leaves an end of the text, so it is no longer than the text. -/
theorem length_skipBlanks_le (text : List Char)
    : (skipBlanks text).length ≤ text.length :=
  (List.dropWhile_suffix isBlank).length_le

/-- What follows the first character behind the blanks is shorter than the text. -/
theorem length_lt_of_skipBlanks {text rest : List Char} {c : Char}
    (ahead : skipBlanks text = c :: rest)
    : rest.length < text.length := by
  have := length_skipBlanks_le text
  simp [ahead] at this
  omega

-------------------------------------------------------------------------------
-- Literals
-------------------------------------------------------------------------------

/-- Reads the remaining letters of a literal, which have to follow at once. -/
def readLetters : (letters : List Char) → (text : List Char)
    → Except Fault (Remainder text)
  | [], text => .ok ⟨text, Nat.le_refl _⟩
  | _ :: _, [] => .error (.behind (.unfinished .value) [])
  | letter :: letters, c :: rest =>
      if c = letter then
        (readLetters letters rest).map (fun after => ⟨after.1, Nat.le_succ_of_le after.2⟩)
      else
        .error (.ahead .misspelledLiteral (c :: rest))

/-- Reads a literal whose first letter is known to stand ahead. -/
def readLiteral (value : Json) (letters : List Char) : Reader Json :=
  fun _ rest =>
    (readLetters letters rest).map (fun after => (value, ⟨after.1, Nat.lt_succ_of_le after.2⟩))

-------------------------------------------------------------------------------
-- Strings
-------------------------------------------------------------------------------

/-- The value of a hexadecimal digit of either case. -/
def hexValue? (c : Char) : Option Nat :=
  if c.isDigit then some (c.toNat - '0'.toNat)
  else if 'a' ≤ c ∧ c ≤ 'f' then some (c.toNat - 'a'.toNat + 10)
  else if 'A' ≤ c ∧ c ≤ 'F' then some (c.toNat - 'A'.toNat + 10)
  else none

/-- The value of four hexadecimal digits. -/
def hexValue4? (a b c d : Char) : Option Nat := do
  return (((← hexValue? a) * 16 + (← hexValue? b)) * 16 + (← hexValue? c)) * 16
    + (← hexValue? d)

/-- Reads the four digits of a numbered escape.
They are taken by bytes, so a longer character among them counts for several of the four.
-/
def readHex4 (text : List Char)
    : Except Fault (Nat × Remainder text) :=
  match text with
  | a :: b :: c :: d :: rest =>
      match hexValue4? a b c d with
      | some value => .ok (value, ⟨rest, by simp only [List.length_cons]; omega⟩)
      | none => .error { problem := .invalidEscape, rest := text, offset := 4 }
  | short =>
      if 4 ≤ (String.ofList short).utf8ByteSize then
        .error { problem := .invalidEscape, rest := short, offset := 4 }
      else
        .error (.behind (.unfinished .string) [])

/-- Whether a number is the first half of a surrogate pair. -/
def isLeadingSurrogate (code : Nat) : Bool :=
  0xd800 ≤ code && code ≤ 0xdbff

/-- Whether a number is the second half of a surrogate pair. -/
def isTrailingSurrogate (code : Nat) : Bool :=
  0xdc00 ≤ code && code ≤ 0xdfff

/-- Reads one character that has to follow at once inside a string. -/
def readPairMark (mark : Char) (text : List Char)
    : Except Fault (Remainder text) :=
  match text with
  | [] => .error (.behind (.unfinished .string) [])
  | c :: rest =>
      if c = mark then .ok ⟨rest, length_le_length_cons c rest⟩
      else .error (.ahead .unfinishedSurrogatePair (c :: rest))

/-- Reads the digits of a numbered escape and, if they are the first half of a surrogate
pair, the second escape that has to follow them.
-/
def readNumberedEscape (text : List Char)
    : Except Fault (Char × Remainder text) := do
  let (code, ⟨rest, le⟩) ← readHex4 text
  if isTrailingSurrogate code then
    .error (.behind .loneSurrogate rest)
  else if isLeadingSurrogate code then
    let ⟨afterBackslash, le₁⟩ ← readPairMark '\\' rest
    let ⟨afterMark, le₂⟩ ← readPairMark 'u' afterBackslash
    let (second, ⟨final, le₃⟩) ← readHex4 afterMark
    if isTrailingSurrogate second then
      let c := Char.ofNat ((code - 0xd800) * 0x400 + (second - 0xdc00) + 0x10000)
      .ok (c, ⟨final, by omega⟩)
    else
      .error (.behind .loneSurrogate final)
  else
    .ok (Char.ofNat code, ⟨rest, le⟩)

/-- The character that a letter behind a backslash stands for. -/
def letterEscape? (c : Char) : Option Char :=
  match c with
  | '"' => some '"'
  | '\\' => some '\\'
  | '/' => some '/'
  | 'b' => some '\x08'
  | 'f' => some '\x0c'
  | 'n' => some '\n'
  | 'r' => some '\r'
  | 't' => some '\t'
  | _ => none

/-- Reads what follows a backslash. -/
def readEscape (text : List Char) : Reading Char text :=
  match text with
  | [] => .error (.behind (.unfinished .string) [])
  | c :: rest =>
      if c = 'u' then
        (readNumberedEscape rest).map
          (fun (decoded, after) => (decoded, ⟨after.1, Nat.lt_succ_of_le after.2⟩))
      else
        match letterEscape? c with
        | some decoded => .ok (decoded, ⟨rest, Nat.lt_succ_self _⟩)
        | none => .error (.ahead .invalidEscape (c :: rest))

/-- Reads a string up to and with its closing quote. -/
def readStringBody (text : List Char) : Reading (List Char) text :=
  match text with
  | [] => .error (.behind (.unfinished .string) [])
  | c :: rest =>
      if c = '"' then
        .ok ([], ⟨rest, Nat.lt_succ_self _⟩)
      else if c = '\\' then
        match readEscape rest with
        | .error fault => .error fault
        | .ok (decoded, ⟨after, lt⟩) =>
            embed (decoded :: ·) (by simp; omega) (readStringBody after)
      else if c.toNat < 0x20 then
        .error (.behind .controlCharacter rest)
      else
        embed (c :: ·) (length_le_length_cons c rest) (readStringBody rest)
termination_by text.length
decreasing_by
  · simp; omega
  · simp

/-- Reads a string whose opening quote is known to stand ahead. -/
def readString : Reader String :=
  fun c rest => embed String.ofList (length_le_length_cons c rest) (readStringBody rest)

-------------------------------------------------------------------------------
-- Numbers
-------------------------------------------------------------------------------

/-- Appends digits to a number as long as it stays within a limit, and returns the digits
that were not taken.
-/
def gather (limit : Nat) (value : Nat) : List Char → Nat × List Char
  | [] => (value, [])
  | digit :: digits =>
      let grown := value * 10 + (digit.toNat - '0'.toNat)
      if grown ≤ limit then gather limit grown digits else (value, digit :: digits)

/-- The greatest significand that reading keeps. -/
def maxSignificand : Nat := Nat.pow 2 64 - 1

/-- The greatest written exponent that reading keeps. -/
def maxExponent : Nat := Nat.pow 2 31 - 1

/-- The digits that a text begins with. -/
def digitsOf (text : List Char) : List Char :=
  text.takeWhile Char.isDigit

/-- What follows the digits that a text begins with. -/
def afterDigits (text : List Char) : List Char :=
  text.dropWhile Char.isDigit

theorem length_afterDigits_le (text : List Char)
    : (afterDigits text).length ≤ text.length :=
  (List.dropWhile_suffix Char.isDigit).length_le

/-- Reads the digits before the decimal point.
There is at least one, and a zero stands alone.
-/
def readWhole (text : List Char) : Reading (List Char) text :=
  match text with
  | [] => .error (.behind (.unfinished .value) [])
  | c :: rest =>
      if c = '0' then
        match digitsOf rest with
        | [] => .ok (['0'], ⟨rest, Nat.lt_succ_self _⟩)
        | _ :: _ => .error (.ahead .invalidNumber rest)
      else if c.isDigit then
        .ok (c :: digitsOf rest,
          ⟨afterDigits rest, Nat.lt_succ_of_le (length_afterDigits_le rest)⟩)
      else
        .error (.ahead .invalidNumber (c :: rest))

/-- Reads a decimal point and the digits behind it, if a point stands ahead. -/
def readFraction (text : List Char)
    : Except Fault (Option (List Char) × Remainder text) :=
  match text with
  | [] => .ok (none, ⟨[], Nat.le_refl _⟩)
  | c :: rest =>
      if c = '.' then
        match digitsOf rest with
        | [] =>
            match rest with
            | [] => .error (.ahead (.unfinished .value) [])
            | _ :: _ => .error (.ahead .invalidNumber rest)
        | digit :: digits =>
            .ok (some (digit :: digits),
              ⟨afterDigits rest, Nat.le_succ_of_le (length_afterDigits_le rest)⟩)
      else
        .ok (none, ⟨c :: rest, Nat.le_refl _⟩)

/-- An exponent as it was written.
Digits that would make it too large are kept apart with the text behind the first of them.
-/
inductive WrittenExponent where
  | fits (value : Int)
  | tooLarge (negative : Bool) (behindExcess : List Char)

/-- The optional sign of an exponent. -/
def readExponentSign (text : List Char) : Bool × Remainder text :=
  match text with
  | [] => (false, ⟨[], Nat.le_refl _⟩)
  | c :: rest =>
      if c = '+' then (false, ⟨rest, length_le_length_cons c rest⟩)
      else if c = '-' then (true, ⟨rest, length_le_length_cons c rest⟩)
      else (false, ⟨c :: rest, Nat.le_refl _⟩)

/-- Reads the digits of an exponent, of which there is at least one. -/
def readExponentDigits (negative : Bool) (text : List Char)
    : Except Fault (WrittenExponent × Remainder text) :=
  match text with
  | [] => .error (.behind (.unfinished .value) [])
  | c :: rest =>
      if c.isDigit then
        let behind := afterDigits (c :: rest)
        let exponent :=
          match gather maxExponent 0 (digitsOf (c :: rest)) with
          | (value, []) => .fits (if negative then -(value : Int) else value)
          | (_, _ :: later) => .tooLarge negative (later ++ behind)
        .ok (exponent, ⟨behind, length_afterDigits_le _⟩)
      else
        .error (.ahead .invalidNumber (c :: rest))

/-- Reads an exponent, if its letter stands ahead. -/
def readExponent (text : List Char)
    : Except Fault (Option WrittenExponent × Remainder text) :=
  match text with
  | [] => .ok (none, ⟨[], Nat.le_refl _⟩)
  | c :: rest =>
      if c = 'e' ∨ c = 'E' then
        let (negative, ⟨digits, le⟩) := readExponentSign rest
        (readExponentDigits negative digits).map (fun (exponent, after) =>
          (some exponent, ⟨after.1, by have := after.2; simp; omega⟩))
      else
        .ok (none, ⟨c :: rest, Nat.le_refl _⟩)

/-- An integer, where its digits fit in 64 bits.
A negative one needs the sign bit too; one that does not fit, and negative zero, becomes a
floating-point number.
-/
def integerOf (negative : Bool) (significand : Nat) : Option JsonNumber :=
  if negative then
    if bounds : 0 < significand ∧ significand ≤ Nat.pow 2 63 then
      some (.integer (-(significand : Int)) (by omega))
    else
      (Binary64.ofNat? significand).map (fun x => .double x.negate)
  else if bounds : significand < Nat.pow 2 64 then
    some (.integer significand (by omega))
  else
    (Binary64.ofNat? significand).map .double

/-- A floating-point number, or nothing if it is out of range. -/
def doubleOf? (negative : Bool) (significand : Nat) (exponent : Int) : Option JsonNumber :=
  (Binary64.ofDecimal? significand exponent).map
    (fun x => .double (if negative then x.negate else x))

/-- The number that its written parts stand for, where `rest` follows it in the text.
Whole digits that do not fit into the significand only count, and fraction digits that do not
fit are left out.
-/
def numberOf (negative : Bool) (whole : List Char) (fraction : Option (List Char))
    (exponent : Option WrittenExponent) (rest : List Char)
    : Except Fault JsonNumber :=
  let (wholePart, uncounted) := gather maxSignificand 0 whole
  let (significand, dropped) := gather maxSignificand wholePart (fraction.getD [])
  let shift : Int := uncounted.length - (((fraction.getD []).length : Int) - dropped.length)
  let inRange := fun (number : Option JsonNumber) =>
    match number with
    | some value => .ok value
    | none => .error (.behind .numberOutOfRange rest)
  match fraction, exponent, uncounted with
  | none, none, [] => inRange (integerOf negative significand)
  | _, none, _ => inRange (doubleOf? negative significand shift)
  | _, some (.fits value), _ => inRange (doubleOf? negative significand (shift + value))
  | _, some (.tooLarge negativeExponent behindExcess), _ =>
      if significand = 0 ∨ negativeExponent then
        .ok (.double (Binary64.zero negative))
      else
        .error (.behind .numberOutOfRange behindExcess)

/-- Reads a number behind its sign. -/
def readUnsigned (negative : Bool) (text : List Char) : Reading JsonNumber text := do
  let (whole, ⟨afterWhole, _⟩) ← readWhole text
  let (fraction, ⟨afterFraction, _⟩) ← readFraction afterWhole
  let (exponent, ⟨rest, _⟩) ← readExponent afterFraction
  let number ← numberOf negative whole fraction exponent rest
  return (number, ⟨rest, by omega⟩)

-------------------------------------------------------------------------------
-- Scalars
-------------------------------------------------------------------------------

/-- Reads a value that holds no other values. -/
def readScalar : Reader Json :=
  fun c rest =>
    if c = 'n' then readLiteral .null ['u', 'l', 'l'] c rest
    else if c = 't' then readLiteral (.bool true) ['r', 'u', 'e'] c rest
    else if c = 'f' then readLiteral (.bool false) ['a', 'l', 's', 'e'] c rest
    else if c = '"' then embed Json.string (Nat.le_refl _) (readString c rest)
    else if c = '-' then
      embed Json.number (length_le_length_cons c rest) (readUnsigned true rest)
    else if c.isDigit then embed Json.number (Nat.le_refl _) (readUnsigned false (c :: rest))
    else .error (.ahead .expectedValue (c :: rest))

end TableQuery.Json
