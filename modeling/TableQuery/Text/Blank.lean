/-! Blank text: nothing but white space. -/

namespace TableQuery.Text

/-- Whether a character is white space: the ASCII blanks and line ends, the next-line
character, and the space, line and paragraph separators.
-/
def isWhiteSpace (c : Char) : Bool :=
  let code := c.toNat
  (0x9 ≤ code && code ≤ 0xd) || code == 0x20 || code == 0x85 || code == 0xa0
    || code == 0x1680 || (0x2000 ≤ code && code ≤ 0x200a) || code == 0x2028 || code == 0x2029
    || code == 0x202f || code == 0x205f || code == 0x3000

/-- Whether nothing is left of a text after its white space is taken away at both ends. -/
def isBlank (text : String) : Bool :=
  text.toList.all isWhiteSpace

theorem isBlank_iff {text : String}
    : isBlank text ↔ ∀ c ∈ text.toList, isWhiteSpace c := by
  simp [isBlank]

end TableQuery.Text
