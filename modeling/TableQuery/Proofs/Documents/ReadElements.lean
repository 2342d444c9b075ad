import TableQuery.Json.Reader
import TableQuery.Proofs.Answers.Traversals
import TableQuery.Proofs.Documents.ReadScalars

/-! Arrays and objects are read from the texts that stand for them.
Each element is read as a whole, because a comma or the closing character stands behind it.  A
value is read if its objects are in order and it is no deeper than the reader goes.
-/

namespace TableQuery.Json

variable {α : Type}

/-- Nothing is skipped in front of what is no blank. -/
theorem skipBlanks_cons {c : Char} (notBlank : isBlank c = false) (text : List Char)
    : skipBlanks (c :: text) = c :: text := by
  simp [skipBlanks, notBlank]

/-- A value that stands ahead without blanks is read. -/
theorem gives_readBehindBlanks {reader : Reader α} {c : Char} (begins : BeginsValue c)
    {text rest : List Char} {value : α} (gives : Gives (reader c text) value rest)
    : Gives (readBehindBlanks reader (c :: text)) value rest := by
  rw [readBehindBlanks]
  -- The match keeps what it found ahead for its own proof, so it is split with that equation.
  split <;> rename_i ahead <;> rw [skipBlanks_cons begins.notBlank] at ahead <;> cases ahead
  exact gives.embed id _

-----------------------------------------------------------------------------------------
-- Elements
-----------------------------------------------------------------------------------------

/-- The closing character of arrays or objects can be told from all that stands in front of
it.
-/
structure Enclosure.Closes (enclosure : Enclosure) : Prop where
  notBlank : isBlank enclosure.close = false
  notComma : ',' ≠ enclosure.close
  notBeginning : ∀ c, BeginsValue c → c ≠ enclosure.close
  ends : ∀ rest, EndsValue (enclosure.close :: rest)

theorem closes_brackets : brackets.Closes where
  notBlank := by decide
  notComma := by decide
  notBeginning _ begins := begins.notBracket
  ends rest := by simp [EndsValue, brackets]

theorem closes_braces : braces.Closes where
  notBlank := by decide
  notComma := by decide
  notBeginning _ begins := begins.notBrace
  ends rest := by simp [EndsValue, braces]

section Elements

variable {enclosure : Enclosure} (closes : enclosure.Closes) {element : Reader α}

include closes

theorem gives_readElements_close (rest : List Char)
    : Gives (readElements enclosure element (enclosure.close :: rest)) [] rest := by
  rw [readElements]
  split <;> rename_i ahead <;> rw [skipBlanks_cons closes.notBlank] at ahead <;> cases ahead
  rw [if_pos rfl]
  exact ⟨_, rfl⟩

theorem gives_readFurther_close (rest : List Char)
    : Gives (readFurther enclosure element (enclosure.close :: rest)) [] rest := by
  rw [readFurther]
  split <;> rename_i ahead <;> rw [skipBlanks_cons closes.notBlank] at ahead <;> cases ahead
  rw [if_pos rfl]
  exact ⟨_, rfl⟩

section First

variable {c : Char} (begins : BeginsValue c) {text after rest : List Char} {value : α}
  {values : List α}

include begins

/-- Behind the opening character the first element is read, and then those behind it. -/
theorem gives_readElements_first (first : Gives (element c text) value after)
    (further : Gives (readFurther enclosure element after) values rest)
    : Gives (readElements enclosure element (c :: text)) (value :: values) rest := by
  obtain ⟨shorter, first⟩ := first
  rw [readElements]
  split <;> rename_i ahead <;> rw [skipBlanks_cons begins.notBlank] at ahead <;> cases ahead
  rw [if_neg (closes.notBeginning _ begins), first]
  exact further.embed (value :: ·) _

/-- Behind a comma the next element is read, and then those behind it. -/
theorem gives_readFurther_comma (first : Gives (element c text) value after)
    (further : Gives (readFurther enclosure element after) values rest)
    : Gives (readFurther enclosure element (',' :: c :: text)) (value :: values) rest := by
  obtain ⟨shorter, first⟩ := first
  rw [readFurther]
  split <;> rename_i ahead <;> rw [skipBlanks_cons (by decide)] at ahead <;> cases ahead
  rw [if_neg closes.notComma, if_pos rfl]
  split <;> rename_i ahead <;> rw [skipBlanks_cons begins.notBlank] at ahead <;> cases ahead
  rw [if_neg (closes.notBeginning _ begins), first]
  exact further.embed (value :: ·) _

end First

/-- What follows an element is the comma of the next one or the end of them all. -/
theorem endsValue_further (written : List (List Char)) (rest : List Char)
    : EndsValue (written.flatMap ([','] ++ ·) ++ enclosure.close :: rest) := by
  cases written with
  | nil => exact closes.ends rest
  | cons next written => simp [EndsValue]

variable {written : List (List Char)} {values : List α}

/-- Written elements behind commas are read, by induction over them. -/
theorem gives_readFurther (reads : List.Forall₂ (Takes element) written values)
    (rest : List Char)
    : Gives
        (readFurther enclosure element
          (written.flatMap ([','] ++ ·) ++ enclosure.close :: rest))
        values rest := by
  induction reads with
  | nil => exact gives_readFurther_close closes rest
  | @cons _ value written values first _ ih =>
      cases first with
      | intro begins gives =>
          rw [List.flatMap_cons, List.append_assoc, List.append_assoc, List.cons_append]
          have ends := endsValue_further closes written rest
          exact gives_readFurther_comma closes begins (gives _ ends) ih

/-- Written elements with commas between them are read. -/
theorem gives_readElements (reads : List.Forall₂ (Takes element) written values)
    (rest : List Char)
    : Gives
        (readElements enclosure element
          ([','].intercalate written ++ enclosure.close :: rest))
        values rest := by
  cases reads with
  | nil => exact gives_readElements_close closes rest
  | @cons _ value written values first further =>
      cases first with
      | intro begins gives =>
          rw [intercalate_cons, List.append_assoc, List.cons_append]
          have ends := endsValue_further closes written rest
          exact gives_readElements_first closes begins (gives _ ends)
            (gives_readFurther closes further rest)

/-- What a reader makes of the elements behind an opening character is read with them. -/
theorem takes_enclose {β : Type} {reader : Reader β} {opening : Char}
    (begins : BeginsValue opening) (convert : List α → β)
    (opens
      : ∀ text,
          reader opening text
            = embed convert (length_le_length_cons opening text)
                (readElements enclosure element text))
    (reads : List.Forall₂ (Takes element) written values)
    : Takes reader (enclose opening enclosure.close written) (convert values) := by
  rw [enclose, List.cons_append]
  refine .intro begins ?_
  intro rest _
  rw [opens, List.append_assoc, List.singleton_append]
  exact (gives_readElements closes reads rest).embed convert _

end Elements

/-- The value of a member is read behind its colon. -/
theorem gives_readMemberValue {reader : Reader α} {text rest : List Char} {value : α}
    (gives : Gives (readBehindBlanks reader text) value rest)
    : Gives (readMemberValue reader (':' :: text)) value rest := by
  rw [readMemberValue]
  split <;> rename_i ahead <;> rw [skipBlanks_cons (by decide)] at ahead <;> cases ahead
  rw [if_pos rfl]
  exact gives.embed id _

/-- A member of an object is read if its value is. -/
theorem takes_member {reader : Reader α} {spelled written : List Char} {name : String}
    {value : α} (isName : SpellsString spelled name) (takes : Takes reader written value)
    : Takes (readMember reader) (spelled ++ ':' :: written) (name, value) := by
  obtain ⟨more, rfl, nameGiven⟩ := isName.exists_gives
  cases takes with
  | @intro c behindFirst _ begins gives =>
      rw [List.cons_append]
      refine .intro (by decide) ?_
      intro rest ends
      rw [List.append_assoc, List.cons_append, List.cons_append]
      obtain ⟨shorter, read⟩ := nameGiven (':' :: c :: (behindFirst ++ rest))
      rw [readMember, if_pos rfl, read]
      have behind := gives_readBehindBlanks begins (gives rest ends)
      exact (gives_readMemberValue behind).embed (name, ·) _

variable {written : List (List Char)}

/-- A sequence is read if its items are. -/
theorem takes_sequence {item : Reader α} {values : List α}
    (reads : List.Forall₂ (Takes item) written values)
    : Takes (readSequence item) (enclose '[' ']' written) values :=
  takes_enclose closes_brackets (by decide) id
    (fun _ => if_pos rfl) reads

/-- A map is read if its members are. -/
theorem takes_map {value : Reader α} {bindings : List (String × α)}
    (reads : List.Forall₂ (Takes (readMember value)) written bindings)
    : Takes (readMap value) (enclose '\x7b' '\x7d' written) (.ofList bindings) :=
  takes_enclose closes_braces (by decide) OrderedMap.ofList
    (fun _ => if_pos rfl) reads

-----------------------------------------------------------------------------------------
-- Values of any kind
-----------------------------------------------------------------------------------------

/-- A scalar is read at any depth, because no scalar begins as an array or object does. -/
theorem Takes.of_scalar {written : List Char} {value : Json}
    (reads : Takes readScalar written value) (depth : Nat)
    : Takes (readValue depth) written value := by
  cases reads with
  | @intro c more _ begins gives =>
      obtain ⟨_, read⟩ := gives [] (by simp [EndsValue])
      have noBracket : c ≠ '[' := by
        rintro rfl
        cases read
      have noBrace : c ≠ '\x7b' := by
        rintro rfl
        cases read
      refine .intro begins ?_
      intro rest ends
      cases depth with
      | zero => simpa [readValue, noBracket, noBrace] using gives rest ends
      | succ depth => simpa [readValue, noBracket, noBrace] using gives rest ends

/-- An array is read at one level more than its items. -/
theorem takes_array {depth : Nat} {items : List Json}
    (reads : List.Forall₂ (Takes (readValue depth)) written items)
    : Takes (readValue (depth + 1)) (enclose '[' ']' written) (.array items) :=
  takes_enclose closes_brackets (by decide) Json.array
    (fun _ => by simp [readValue]) reads

/-- An object is read at one level more than its members. -/
theorem takes_object {depth : Nat} {members : List (String × Json)}
    (reads : List.Forall₂ (Takes (readMember (readValue depth))) written members)
    : Takes (readValue (depth + 1)) (enclose '\x7b' '\x7d' written)
        (.ofMembers members) :=
  takes_enclose closes_braces (by decide) Json.ofMembers
    (fun _ => by simp [readValue]) reads

/-- A value whose objects are in order is read wherever it is not too deep, by induction on the
value: one level less is left for what is inside.
-/
theorem takes_value {depth : Nat} {written : List Char} {value : Json}
    (stands : StandsFor written value) (ordered : value.IsOrdered)
    (shallow : value.depth ≤ depth)
    : Takes (readValue depth) written value := by
  induction value using inductionOn generalizing depth written with
  | null =>
      cases stands
      exact takes_null.of_scalar depth
  | bool value =>
      cases stands
      · exact takes_true.of_scalar depth
      · exact takes_false.of_scalar depth
  | string text =>
      cases stands with
      | string spelled => exact spelled.takes.of_scalar depth
  | number number =>
      cases stands with
      | integer bounds => exact (takes_integer bounds).of_scalar depth
  | array items ih =>
      obtain ⟨inner, rfl⟩ := exists_eq_succ_of_depth shallow (Nat.succ_pos _)
      cases stands with
      | array each =>
          refine takes_array (forall₂_imp_of_mem each ?_)
          intro item member text itemStands
          have less := depth_lt_of_item member
          exact ih item member itemStands (ordered.of_item member) (by omega)
  | object members ih =>
      obtain ⟨inner, rfl⟩ := exists_eq_succ_of_depth shallow (Nat.succ_pos _)
      -- The reader puts members in order, and these are in order already.
      have inOrder : ofMembers members = object members :=
        congrArg object (OrderedMap.entries_ofList (ordered.here members rfl))
      cases stands with
      | object each =>
          rw [← inOrder]
          refine takes_object (forall₂_imp_of_mem each ?_)
          rintro ⟨name, value⟩ member text ⟨isName, isValue⟩
          have less := depth_lt_of_member member
          have valueShallow : value.depth ≤ inner := by omega
          exact takes_member isName
            (ih (name, value) member isValue (ordered.of_member member) valueShallow)

end TableQuery.Json
