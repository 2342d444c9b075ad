import TableQuery.Json.Scalar

/-! Reading JSON texts, as arbitrary values or as values of an expected shape.
Blanks may stand before every value.  A text is read from its beginning, and the first fault
ends the reading.
-/

namespace TableQuery.Json

variable {α : Type}

/-- Reads a value that has to stand behind the blanks ahead. -/
def readBehindBlanks (value : Reader α) (text : List Char) : Reading α text :=
  match ahead : skipBlanks text with
  | [] => .error (.ahead (.unfinished .value) [])
  | c :: rest => embed id (by exact length_lt_of_skipBlanks ahead) (value c rest)

-------------------------------------------------------------------------------
-- Arrays and objects
-------------------------------------------------------------------------------

/-- How the elements of an array or object are enclosed, and what is reported where they are
not.
-/
structure Enclosure where
  close : Char
  construct : Construct
  missingComma : Problem

/-- The items of an array. -/
def brackets : Enclosure where
  close := ']'
  construct := .list
  missingComma := .expectedCommaOrBracket

/-- The members of an object. -/
def braces : Enclosure where
  close := '\x7d'
  construct := .object
  missingComma := .expectedCommaOrBrace

/-- Reads the elements behind the first one, up to and with the closing character.
Every comma has to be followed by an element.
-/
def readFurther (enclosure : Enclosure) (element : Reader α) (text : List Char)
    : Reading (List α) text :=
  match ahead : skipBlanks text with
  | [] => .error (.ahead (.unfinished enclosure.construct) [])
  | c :: rest =>
      have shorter := length_lt_of_skipBlanks ahead
      if c = enclosure.close then
        .ok ([], ⟨rest, shorter⟩)
      else if c = ',' then
        match aheadOfElement : skipBlanks rest with
        | [] => .error (.ahead (.unfinished .value) [])
        | next :: behindNext =>
            have := length_lt_of_skipBlanks aheadOfElement
            if next = enclosure.close then
              .error (.ahead .trailingComma (next :: behindNext))
            else
              match element next behindNext with
              | .error fault => .error fault
              | .ok (first, ⟨after, lt⟩) =>
                  have : after.length < text.length := by simp at lt; omega
                  embed (first :: ·) (Nat.le_of_lt this) (readFurther enclosure element after)
      else
        .error (.ahead enclosure.missingComma (c :: rest))
termination_by text.length

/-- Reads the elements behind the opening character, up to and with the closing one. -/
def readElements (enclosure : Enclosure) (element : Reader α) (text : List Char)
    : Reading (List α) text :=
  match ahead : skipBlanks text with
  | [] => .error (.ahead (.unfinished enclosure.construct) [])
  | c :: rest =>
      have shorter := length_lt_of_skipBlanks ahead
      if c = enclosure.close then
        .ok ([], ⟨rest, shorter⟩)
      else
        match element c rest with
        | .error fault => .error fault
        | .ok (first, ⟨after, lt⟩) =>
            embed (first :: ·) (by simp at lt; omega) (readFurther enclosure element after)

/-- Reads a colon and the value behind it. -/
def readMemberValue (value : Reader α) (text : List Char) : Reading α text :=
  match ahead : skipBlanks text with
  | [] => .error (.ahead (.unfinished .object) [])
  | c :: rest =>
      if c = ':' then
        embed id (Nat.le_of_lt (length_lt_of_skipBlanks ahead)) (readBehindBlanks value rest)
      else
        .error (.ahead .expectedColon (c :: rest))

/-- Reads a member of an object: a string, a colon and a value. -/
def readMember (value : Reader α) : Reader (String × α) :=
  fun c rest =>
    if c = '"' then
      match readString c rest with
      | .error fault => .error fault
      | .ok (name, ⟨after, lt⟩) =>
          embed (name, ·) (Nat.le_of_lt lt) (readMemberValue value after)
    else
      .error (.ahead .keyNotString (c :: rest))

-------------------------------------------------------------------------------
-- Values
-------------------------------------------------------------------------------

/-- How many arrays and objects may be open at the same time in a document. -/
def maxDepth : Nat := 127

/-- Reads any value, in which at most the given number of arrays and objects may be open at
the same time.
-/
def readValue : (depth : Nat) → Reader Json
  | 0 => fun c rest =>
      if c = '[' ∨ c = '\x7b' then .error (.ahead .tooDeep (c :: rest))
      else readScalar c rest
  | depth + 1 => fun c rest =>
      if c = '[' then
        embed Json.array (length_le_length_cons c rest)
          (readElements brackets (readValue depth) rest)
      else if c = '\x7b' then
        embed Json.ofMembers (length_le_length_cons c rest)
          (readElements braces (readMember (readValue depth)) rest)
      else
        readScalar c rest

/-- The fault of a value that is not of the expected kind.
A value without others inside is read to its end first and may be faulty itself.
-/
def shapeFault (expected : Container) (c : Char) (rest : List Char) : Fault :=
  if c = '[' then .behind (.wrongShape .sequence expected) (c :: rest)
  else if c = '\x7b' then .behind (.wrongShape .map expected) (c :: rest)
  else
    match readScalar c rest with
    | .error fault => fault
    | .ok (value, after) => .behind (.wrongShape value.shape expected) after.1

/-- Reads an array whose items are all of one kind. -/
def readSequence (item : Reader α) : Reader (List α) :=
  fun c rest =>
    if c = '[' then
      embed id (length_le_length_cons c rest) (readElements brackets item rest)
    else
      .error (shapeFault .sequence c rest)

/-- Reads an object whose member values are all of one kind.
Of members with the same name the last one stays, but all of them are read.
-/
def readMap (value : Reader α) : Reader (OrderedMap α) :=
  fun c rest =>
    if c = '\x7b' then
      embed OrderedMap.ofList (length_le_length_cons c rest)
        (readElements braces (readMember value) rest)
    else
      .error (shapeFault .map c rest)

/-- Reads an array or an object where no more of them may be open. -/
def readTooDeep (expected : Container) : Reader α :=
  fun c rest =>
    if c = expected.opening then .error (.ahead .tooDeep (c :: rest))
    else .error (shapeFault expected c rest)

/-- Reads a whole text, with nothing but blanks around the value. -/
def readText (value : Reader α) (text : String) : Except Rejection α :=
  let reject := fun (fault : Fault) =>
    .error { problem := fault.problem, place := fault.place text.toList }
  match readBehindBlanks value text.toList with
  | .error fault => reject fault
  | .ok (result, rest) =>
      match skipBlanks rest.1 with
      | [] => .ok result
      | c :: after => reject (.ahead .trailingCharacters (c :: after))

-------------------------------------------------------------------------------
-- Values of an expected shape
-------------------------------------------------------------------------------

/-- The items of an array. -/
def asSequence : Json → Except Problem (List Json)
  | array items => .ok items
  | other => .error (.wrongShape other.shape .sequence)

/-- The members of an object. -/
def asMap : Json → Except Problem (List (String × Json))
  | object members => .ok members
  | other => .error (.wrongShape other.shape .map)

end TableQuery.Json
