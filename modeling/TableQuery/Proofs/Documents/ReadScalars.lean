import TableQuery.Json.Scalar
import TableQuery.Proofs.Documents.WrittenTexts

/-! Scalars are read from the texts that stand for them.
A reader takes the text of a scalar as a whole and leaves what follows it.  Only a number needs
to know what that is: its digits go on as long as there are digits.
-/

namespace TableQuery.Json

variable {α β : Type}

-----------------------------------------------------------------------------------------
-- What readers take
-----------------------------------------------------------------------------------------

/-- Reading a text gives a value and leaves an end of the text. -/
def Gives {text : List Char} (reading : Reading α text) (value : α) (rest : List Char)
    : Prop :=
  ∃ shorter, reading = .ok (value, ⟨rest, shorter⟩)

/-- A reading stays the same inside a longer text. -/
theorem Gives.embed {inner outer : List Char} {reading : Reading α inner} {value : α}
    {rest : List Char} (gives : Gives reading value rest) (convert : α → β)
    (le : inner.length ≤ outer.length)
    : Gives (embed convert le reading) (convert value) rest := by
  obtain ⟨shorter, rfl⟩ := gives
  exact ⟨Nat.lt_of_lt_of_le shorter le, rfl⟩

/-- A character that a value can begin with: no blank, and nothing that closes an array or an
object.
-/
structure BeginsValue (c : Char) : Prop where
  notBlank : isBlank c = false
  notBracket : c ≠ ']'
  notBrace : c ≠ '\x7d'

instance (c : Char) : Decidable (BeginsValue c) :=
  decidable_of_iff (isBlank c = false ∧ c ≠ ']' ∧ c ≠ '\x7d')
    ⟨fun tests => ⟨tests.1, tests.2.1, tests.2.2⟩,
      fun begins => ⟨begins.notBlank, begins.notBracket, begins.notBrace⟩⟩

/-- A text that can stand behind a value: it goes on with another element, closes an array or
an object, or has ended.
-/
def EndsValue (rest : List Char) : Prop :=
  ∀ c ∈ rest.head?, c = ',' ∨ c = ']' ∨ c = '\x7d'

/-- A reader takes a text as a whole, whatever can stand behind a value. -/
inductive Takes (reader : Reader α) : List Char → α → Prop
  | intro {c more value} (begins : BeginsValue c)
    (gives : ∀ rest, EndsValue rest → Gives (reader c (more ++ rest)) value rest)
    : Takes reader (c :: more) value

-----------------------------------------------------------------------------------------
-- Strings
-----------------------------------------------------------------------------------------

/-- A character that stands for itself is read as itself. -/
theorem gives_readStringBody_plain {c : Char} (notQuote : c ≠ '"') (notBackslash : c ≠ '\\')
    (notControl : ¬ c.toNat < 0x20) {text rest chars : List Char}
    (behind : Gives (readStringBody text) chars rest)
    : Gives (readStringBody (c :: text)) (c :: chars) rest := by
  rw [readStringBody, if_neg notQuote, if_neg notBackslash, if_neg notControl]
  exact behind.embed (c :: ·) _

/-- An escape is read as the character that it stands for. -/
theorem gives_readStringBody_escaped {escaped text rest chars : List Char} {c : Char}
    (decoded : Gives (readEscape escaped) c text)
    (behind : Gives (readStringBody text) chars rest)
    : Gives (readStringBody ('\\' :: escaped)) (c :: chars) rest := by
  obtain ⟨shorter, decoded⟩ := decoded
  rw [readStringBody, if_neg (by decide), if_pos rfl, decoded]
  exact behind.embed (c :: ·) _

/-- A letter behind a backslash is read as the character that it stands for. -/
theorem gives_readEscape_letter {letter c : Char} (stands : (letter, c) ∈ escapeLetters)
    (text : List Char)
    : Gives (readEscape (letter :: text)) c text := by
  have decoded
      : ∀ entry ∈ escapeLetters,
          entry.1 ≠ 'u' ∧ letterEscape? entry.1 = some entry.2 := by
    decide
  obtain ⟨notNumbered, decoded⟩ := decoded (letter, c) stands
  rw [readEscape, if_neg notNumbered, decoded]
  exact ⟨Nat.lt_succ_self _, rfl⟩

theorem hexValue?_of_isHexDigit {c : Char} {value : Nat} (isDigit : IsHexDigit c value)
    : hexValue? c = some value := by
  have values
      : ∀ digit < 16,
          hexValue? (Nat.digitChar digit) = some digit
          ∧ hexValue? (Nat.digitChar digit).toUpper = some digit := by
    decide
  obtain ⟨less, rfl | rfl⟩ := isDigit
  · exact (values value less).1
  · exact (values value less).2

/-- The number of a character is none of those that come in pairs. -/
theorem not_surrogate (c : Char)
    : isTrailingSurrogate c.toNat = false ∧ isLeadingSurrogate c.toNat = false := by
  have valid : c.toNat < 0xd800 ∨ 0xdfff < c.toNat ∧ c.toNat < 0x110000 := c.valid
  simp only [isTrailingSurrogate, isLeadingSurrogate, Bool.and_eq_false_iff,
    decide_eq_false_iff_not]
  omega

/-- Four hexadecimal digits are read as the character with their number. -/
theorem gives_readEscape_numbered {first second third fourth c : Char} {a b d e : Nat}
    (isFirst : IsHexDigit first a) (isSecond : IsHexDigit second b)
    (isThird : IsHexDigit third d) (isFourth : IsHexDigit fourth e)
    (code : c.toNat = ((a * 16 + b) * 16 + d) * 16 + e) (text : List Char)
    : Gives (readEscape ('u' :: first :: second :: third :: fourth :: text)) c text := by
  have value : hexValue4? first second third fourth = some c.toNat := by
    simp [hexValue4?, hexValue?_of_isHexDigit isFirst, hexValue?_of_isHexDigit isSecond,
      hexValue?_of_isHexDigit isThird, hexValue?_of_isHexDigit isFourth, code]
  obtain ⟨notTrailing, notLeading⟩ := not_surrogate c
  rw [readEscape, if_pos rfl, readNumberedEscape, readHex4, value]
  simp [bind, Except.bind, notTrailing, notLeading, Except.map, Gives]
  omega

/-- A character is read from what spells it. -/
theorem SpellsChar.gives {spelled : List Char} {c : Char} (spells : SpellsChar spelled c)
    {text rest chars : List Char} (behind : Gives (readStringBody text) chars rest)
    : Gives (readStringBody (spelled ++ text)) (c :: chars) rest := by
  cases spells with
  | plain notQuote notBackslash notControl =>
      exact gives_readStringBody_plain notQuote notBackslash (Nat.not_lt.mpr notControl) behind
  | letter stands =>
      exact gives_readStringBody_escaped (gives_readEscape_letter stands text) behind
  | numbered isFirst isSecond isThird isFourth code =>
      exact gives_readStringBody_escaped
        (gives_readEscape_numbered isFirst isSecond isThird isFourth code text) behind

/-- A string is read up to its closing quote, by induction over its characters. -/
theorem gives_readStringBody {spelled : List (List Char)} {chars : List Char}
    (each : List.Forall₂ SpellsChar spelled chars) (rest : List Char)
    : Gives (readStringBody (spelled.flatten ++ '"' :: rest)) chars rest := by
  induction each with
  | nil =>
      rw [List.flatten_nil, List.nil_append, readStringBody, if_pos rfl]
      exact ⟨Nat.lt_succ_self _, rfl⟩
  | cons first _ ih =>
      rw [List.flatten_cons, List.append_assoc]
      exact first.gives ih

/-- A string begins with its quote and is read up to the closing one. -/
theorem SpellsString.exists_gives {written : List Char} {text : String}
    (spells : SpellsString written text)
    : ∃ more,
        written = '"' :: more
        ∧ ∀ rest, Gives (readString '"' (more ++ rest)) text rest := by
  cases spells with
  | @intro spelled text each =>
      refine ⟨spelled.flatten ++ ['"'], rfl, fun rest => ?_⟩
      rw [List.append_assoc, List.singleton_append]
      have body := (gives_readStringBody each rest).embed String.ofList
        (length_le_length_cons '"' _)
      rwa [String.ofList_toList] at body

-----------------------------------------------------------------------------------------
-- Integers
-----------------------------------------------------------------------------------------

/-- A text that no number in front of it runs into. -/
structure EndsNumber (rest : List Char) : Prop where
  notDigit : ∀ c ∈ rest.head?, c.isDigit = false
  notPoint : ∀ c ∈ rest.head?, c ≠ '.'
  notExponent : ∀ c ∈ rest.head?, c ≠ 'e' ∧ c ≠ 'E'

/-- No number runs into what can stand behind a value. -/
theorem EndsValue.endsNumber {rest : List Char} (ends : EndsValue rest) : EndsNumber rest where
  notDigit c first := by rcases ends c first with rfl | rfl | rfl <;> decide
  notPoint c first := by rcases ends c first with rfl | rfl | rfl <;> decide
  notExponent c first := by rcases ends c first with rfl | rfl | rfl <;> decide

/-- Digits only make a number larger, by induction over them. -/
theorem le_ofDigitChars (digits : List Char) (value : Nat)
    : value ≤ Nat.ofDigitChars 10 digits value := by
  induction digits generalizing value with
  | nil => exact Nat.le_refl value
  | cons digit digits ih =>
      rw [Nat.ofDigitChars_cons]
      have := ih (10 * value + (digit.toNat - '0'.toNat))
      omega

/-- All digits of a number within the limit are taken, by induction over them: the numbers on
the way are within it too.
-/
theorem gather_of_le {limit : Nat} {digits : List Char} {value : Nat}
    (within : Nat.ofDigitChars 10 digits value ≤ limit)
    : gather limit value digits = (Nat.ofDigitChars 10 digits value, []) := by
  induction digits generalizing value with
  | nil => rfl
  | cons digit digits ih =>
      rw [Nat.ofDigitChars_cons, Nat.mul_comm] at within ⊢
      rw [gather, if_pos (Nat.le_trans (le_ofDigitChars digits _) within)]
      exact ih within

/-- Only zero is written with a zero in front, by induction over the digits. -/
theorem head?_toDigits_ne_zero {n : Nat} (positive : 0 < n)
    : (Nat.toDigits 10 n).head? ≠ some '0' := by
  induction n using Nat.strongRecOn with
  | ind n ih =>
      by_cases small : n < 10
      · have digits : ∀ digit < 10, 0 < digit → Nat.digitChar digit ≠ '0' := by decide
        rw [Nat.toDigits_of_lt_base small]
        simpa using digits n small positive
      · rw [Nat.toDigits_of_base_le (by decide) (by omega), List.head?_append_of_ne_nil]
        · exact ih (n / 10) (by omega) (by omega)
        · exact Nat.toDigits_ne_nil

/-- The digits of a number are split off as a whole. -/
theorem digitsOf_append {digits rest : List Char} (allDigits : ∀ c ∈ digits, c.isDigit)
    (ends : EndsNumber rest)
    : digitsOf (digits ++ rest) = digits ∧ afterDigits (digits ++ rest) = rest := by
  have none : digitsOf rest = [] ∧ afterDigits rest = rest := by
    cases rest with
    | nil => exact ⟨rfl, rfl⟩
    | cons c rest =>
        have notDigit := ends.notDigit c rfl
        simp [digitsOf, afterDigits, notDigit]
  rw [digitsOf, afterDigits, List.takeWhile_append_of_pos allDigits,
    List.dropWhile_append_of_pos allDigits]
  exact ⟨by rw [← digitsOf, none.1, List.append_nil], none.2⟩

/-- The digits of a number are read as a whole: a zero stands alone, and any other number
begins with another digit.
-/
theorem gives_readWhole (n : Nat) {rest : List Char} (ends : EndsNumber rest)
    : Gives (readWhole (Nat.toDigits 10 n ++ rest)) (Nat.toDigits 10 n) rest := by
  cases digits : Nat.toDigits 10 n with
  | nil => exact absurd digits Nat.toDigits_ne_nil
  | cons digit more =>
      have allDigits : ∀ c ∈ digit :: more, c.isDigit := by
        intro c member
        exact Nat.isDigit_of_mem_toDigits (by decide) (by decide) (digits ▸ member)
      obtain ⟨isDigit, moreDigits⟩ := List.forall_mem_cons.mp allDigits
      obtain ⟨taken, left⟩ := digitsOf_append moreDigits ends
      rw [List.cons_append, readWhole]
      by_cases isZero : digit = '0'
      · have alone : more = [] := by
          rcases Nat.eq_zero_or_pos n with rfl | positive
          · exact (List.cons.inj (digits.symm.trans (Nat.toDigits_zero 10))).2
          · exact absurd (by simp [digits, isZero]) (head?_toDigits_ne_zero positive)
        subst isZero alone
        rw [if_pos rfl, taken]
        exact ⟨Nat.lt_succ_self _, rfl⟩
      · rw [if_neg isZero, if_pos isDigit]
        simp only [taken, left]
        exact ⟨_, rfl⟩

/-- Nothing behind a number is read as its fraction. -/
theorem readFraction_of_endsNumber {rest : List Char} (ends : EndsNumber rest)
    : readFraction rest = .ok (none, ⟨rest, Nat.le_refl _⟩) := by
  cases rest with
  | nil => rfl
  | cons c rest => simp [readFraction, ends.notPoint c rfl]

/-- Nothing behind a number is read as its exponent. -/
theorem readExponent_of_endsNumber {rest : List Char} (ends : EndsNumber rest)
    : readExponent rest = .ok (none, ⟨rest, Nat.le_refl _⟩) := by
  cases rest with
  | nil => rfl
  | cons c rest =>
      obtain ⟨notSmall, notLarge⟩ := ends.notExponent c rfl
      simp [readExponent, notSmall, notLarge]

/-- An integer within the limit of the significand is read behind its sign. -/
theorem gives_readUnsigned {n : Nat} (within : n ≤ maxSignificand) {negative : Bool}
    {number : JsonNumber} (converted : integerOf negative n = some number) {rest : List Char}
    (ends : EndsNumber rest)
    : Gives (readUnsigned negative (Nat.toDigits 10 n ++ rest)) number rest := by
  have gathered : gather maxSignificand 0 (Nat.toDigits 10 n) = (n, []) := by
    rw [gather_of_le (by rwa [Nat.ofDigitChars_ten_toDigits]), Nat.ofDigitChars_ten_toDigits]
  have decided : numberOf negative (Nat.toDigits 10 n) none none rest = .ok number := by
    simp [numberOf, gathered, gather, converted]
  obtain ⟨shorter, whole⟩ := gives_readWhole n ends
  simp only [readUnsigned, whole, bind, Except.bind, readFraction_of_endsNumber ends,
    readExponent_of_endsNumber ends, decided]
  exact ⟨shorter, rfl⟩

/-- An integer of 64 bits is read behind its sign. -/
theorem integerOf_natAbs {value : Int}
    (bounds : -(Nat.pow 2 63) ≤ value ∧ value < Nat.pow 2 64)
    : value.natAbs ≤ maxSignificand
      ∧ integerOf (value < 0) value.natAbs = some (.integer value bounds) := by
  have limits : Nat.pow 2 63 = 9223372036854775808 ∧ Nat.pow 2 64 = 18446744073709551616 := by
    decide
  refine ⟨?_, ?_⟩
  · rw [maxSignificand]
    omega
  by_cases negative : value < 0
  · have inRange : 0 < value.natAbs ∧ value.natAbs ≤ Nat.pow 2 63 := by omega
    have same : -(value.natAbs : Int) = value := by omega
    simp only [integerOf, negative, decide_true, if_true, dif_pos inRange, same]
  · have inRange : value.natAbs < Nat.pow 2 64 := by omega
    have same : (value.natAbs : Int) = value := by omega
    simp only [integerOf, negative, decide_false, Bool.false_eq_true, if_false,
      dif_pos inRange, same]

-----------------------------------------------------------------------------------------
-- Scalars
-----------------------------------------------------------------------------------------

/-- The letters of a literal are read one after the other, by induction over them. -/
theorem exists_readLetters_append (letters rest : List Char)
    : ∃ le, readLetters letters (letters ++ rest) = .ok ⟨rest, le⟩ := by
  induction letters with
  | nil => exact ⟨Nat.le_refl _, rfl⟩
  | cons letter letters ih =>
      obtain ⟨le, read⟩ := ih
      rw [List.cons_append, readLetters, if_pos rfl, read]
      exact ⟨Nat.le_succ_of_le le, rfl⟩

theorem gives_readLiteral (value : Json) (first : Char) (letters rest : List Char)
    : Gives (readLiteral value letters first (letters ++ rest)) value rest := by
  obtain ⟨le, read⟩ := exists_readLetters_append letters rest
  rw [readLiteral, read]
  exact ⟨Nat.lt_succ_of_le le, rfl⟩

theorem takes_null : Takes readScalar ['n', 'u', 'l', 'l'] .null :=
  .intro (by decide) (fun rest _ => gives_readLiteral .null 'n' ['u', 'l', 'l'] rest)

theorem takes_true : Takes readScalar ['t', 'r', 'u', 'e'] (.bool true) :=
  .intro (by decide) (fun rest _ => gives_readLiteral (.bool true) 't' ['r', 'u', 'e'] rest)

theorem takes_false : Takes readScalar ['f', 'a', 'l', 's', 'e'] (.bool false) :=
  .intro (by decide)
    (fun rest _ => gives_readLiteral (.bool false) 'f' ['a', 'l', 's', 'e'] rest)

theorem SpellsString.takes {written : List Char} {text : String}
    (spells : SpellsString written text)
    : Takes readScalar written (.string text) := by
  obtain ⟨more, rfl, gives⟩ := spells.exists_gives
  refine .intro (by decide) ?_
  intro rest _
  exact (gives rest).embed Json.string (Nat.le_refl _)

theorem ne_of_isDigit {c other : Char} (isDigit : c.isDigit) (notDigit : other.isDigit = false)
    : c ≠ other := by
  rintro rfl
  exact absurd isDigit (by simp [notDigit])

/-- A digit in front is read as the beginning of a number. -/
theorem takes_digits {written : List Char} {number : JsonNumber}
    (notEmpty : written ≠ []) (allDigits : ∀ c ∈ written, c.isDigit)
    (gives : ∀ rest, EndsValue rest → Gives (readUnsigned false (written ++ rest)) number rest)
    : Takes readScalar written (.number number) := by
  cases written with
  | nil => exact absurd rfl notEmpty
  | cons digit more =>
      have isDigit := allDigits digit List.mem_cons_self
      have differs {other : Char} (notDigit : other.isDigit = false) : digit ≠ other :=
        ne_of_isDigit isDigit notDigit
      refine .intro ⟨?_, differs rfl, differs rfl⟩ ?_
      · have notBlank : digit ≠ ' ' ∧ digit ≠ '\n' ∧ digit ≠ '\t' ∧ digit ≠ '\r' :=
          ⟨differs rfl, differs rfl, differs rfl, differs rfl⟩
        simp [isBlank, notBlank]
      · intro rest ends
        rw [readScalar, if_neg (differs rfl), if_neg (differs rfl), if_neg (differs rfl),
          if_neg (differs rfl), if_neg (differs rfl), if_pos isDigit]
        exact (gives rest ends).embed Json.number _

/-- An integer is read from its sign and its digits. -/
theorem takes_integer {value : Int}
    (bounds : -(Nat.pow 2 63) ≤ value ∧ value < Nat.pow 2 64)
    : Takes readScalar (toString value).toList (.number (.integer value bounds)) := by
  obtain ⟨within, converted⟩ := integerOf_natAbs bounds
  have read (rest : List Char) (ends : EndsValue rest) :=
    gives_readUnsigned within converted ends.endsNumber
  rw [toList_toString]
  by_cases negative : value < 0
  · simp only [negative, decide_true, if_true] at read ⊢
    refine .intro (by decide) ?_
    intro rest ends
    exact (read rest ends).embed Json.number (length_le_length_cons _ _)
  · simp only [negative, decide_false, if_false, List.nil_append] at read ⊢
    refine takes_digits Nat.toDigits_ne_nil ?_ read
    intro c member
    exact Nat.isDigit_of_mem_toDigits (by decide) (by decide) member

end TableQuery.Json
