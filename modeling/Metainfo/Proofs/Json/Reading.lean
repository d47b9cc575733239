import Metainfo.Json
import Metainfo.Proofs.Decimal
import Metainfo.Proofs.Entries

/-!
# Reading JSON

Text is read by the grammar of JSON, whichever way it was written.  Blanks may stand
around values and marks, the characters of a string may be escaped in all the ways there
are, and the members of an object may come in any order, where the last of several with
one name counts.  Fractions, exponents and the three words are left out, since trees
hold nothing that they denote.  Main statement: the compact text of a tree reads back as
that tree.
-/

namespace Metainfo.Json

/-! ## The reader -/

/-- Whether a character may stand between values and marks. -/
def isBlank (char : Char) : Bool :=
  char == ' ' || char == '\t' || char == '\n' || char == '\r'

/-- The rest after blanks. -/
def skipBlanks (chars : List Char) : List Char :=
  chars.dropWhile isBlank

/-- The value of a hexadecimal digit of either case. -/
def hexValue? (char : Char) : Option Nat :=
  Hex.digits.idxOf? char.toLower

/-- Reads four hexadecimal digits as a code unit of sixteen bits. -/
def readUnit? : List Char → Option (Nat × List Char)
  | first :: second :: third :: fourth :: rest => do
      let digits ← [first, second, third, fourth].mapM hexValue?
      return (digits.foldl (fun unit digit => unit * 16 + digit) 0, rest)
  | _ => none

/-- The character of an escape of one letter. -/
def shortEscape? : Char → Option Char
  | '"' => some '"'
  | '\\' => some '\\'
  | '/' => some '/'
  | 'b' => some '\x08'
  | 'f' => some '\x0c'
  | 'n' => some '\n'
  | 'r' => some '\r'
  | 't' => some '\t'
  | _ => none

/-- Reads the second half of a surrogate pair and gives the character of the pair. -/
def readPair? (high : Nat) : List Char → Option (Char × List Char)
  | '\\' :: 'u' :: rest => do
      let (low, rest) ← readUnit? rest
      if high < 0xDC00 ∧ 0xDC00 ≤ low ∧ low < 0xE000 then
        return (Char.ofNat (0x10000 + (high - 0xD800) * 0x400 + (low - 0xDC00)), rest)
      else none
  | _ => none

/-- Reads an escape after its backslash. -/
def readEscape? : List Char → Option (Char × List Char)
  | [] => none
  | letter :: rest =>
      if letter = 'u' then do
        let (unit, rest) ← readUnit? rest
        if unit.isValidChar then return (Char.ofNat unit, rest) else readPair? unit rest
      else (shortEscape? letter).map fun char => (char, rest)

/-- Reads one character of a string. -/
def readChar? : List Char → Option (Char × List Char)
  | [] => none
  | char :: rest =>
      if char = '\\' then readEscape? rest
      else if char.toNat < 0x20 then none
      else some (char, rest)

/-- Reads the characters of a string, fewer than `steps`, and the quote after them. -/
def readChars? : (steps : Nat) → List Char → Option (List Char × List Char)
  | 0, _ => none
  | _ + 1, [] => none
  | steps + 1, char :: rest =>
      if char = '"' then some ([], rest)
      else do
        let (first, rest) ← readChar? (char :: rest)
        let (chars, rest) ← readChars? steps rest
        return (first :: chars, rest)

/-- Reads a string after its first quote. -/
def readString? (chars : List Char) : Option (String × List Char) :=
  (readChars? chars.length chars).map fun (text, rest) => (String.ofList text, rest)

/-- Reads the digits of a number, which begin with a zero only if there is no other
digit. -/
def readNatural? (chars : List Char) : Option (Nat × List Char) :=
  let digits := chars.takeWhile Char.isDigit
  if digits = [] ∨ (digits.length > 1 ∧ digits.head? = some '0') then none
  else some (Nat.ofDigitChars 10 digits 0, chars.dropWhile Char.isDigit)

/-- Reads an integer. -/
def readNumber? : List Char → Option (Int × List Char)
  | [] => none
  | char :: rest =>
      if char = '-' then (readNatural? rest).map fun (digits, rest) => (-digits, rest)
      else (readNatural? (char :: rest)).map fun (digits, rest) => (digits, rest)

section Sequences

variable {Element : Type} (close : Char)
  (read : List Char → Option (Element × List Char))

/-- Reads elements with commas between them, one or more but at most `steps`, and the
mark after them. -/
def readElements? : (steps : Nat) → List Char → Option (List Element × List Char)
  | 0, _ => none
  | steps + 1, chars => do
      let (element, rest) ← read chars
      match skipBlanks rest with
      | [] => none
      | mark :: rest =>
          if mark = close then return ([element], rest)
          else if mark = ',' then
            let (elements, rest) ← readElements? steps rest
            return (element :: elements, rest)
          else none

/-- Reads elements as `readElements?` does, or none. -/
def readSequence? (steps : Nat) (chars : List Char) :
    Option (List Element × List Char) :=
  match skipBlanks chars with
  | [] => none
  | mark :: rest =>
      if mark = close then some ([], rest)
      else readElements? close read steps (mark :: rest)

end Sequences

/-- Reads the name of a member, a colon and the value. -/
def readMember? (read : List Char → Option (Json × List Char)) (chars : List Char) :
    Option ((String × Json) × List Char) :=
  match skipBlanks chars with
  | '"' :: rest => do
      let (name, rest) ← readString? rest
      match skipBlanks rest with
      | ':' :: rest => do
          let (value, rest) ← read rest
          return ((name, value), rest)
      | _ => none
  | _ => none

/-- Reads a value.  In `steps` steps values are read that have no more characters. -/
def readValue? : (steps : Nat) → List Char → Option (Json × List Char)
  | 0, _ => none
  | steps + 1, chars =>
      match skipBlanks chars with
      | [] => none
      | mark :: rest =>
          if mark = '"' then (readString? rest).map fun (text, rest) =>
            (.string text, rest)
          else if mark = '[' then
            (readSequence? ']' (readValue? steps) steps rest).map fun (items, rest) =>
              (.array items, rest)
          else if mark = '\x7b' then
            (readSequence? '\x7d' (readMember? (readValue? steps)) steps rest).map
              fun (members, rest) => (.object (Entries.ofList members), rest)
          else (readNumber? (mark :: rest)).map fun (value, rest) =>
            (.number value, rest)

/-- The tree of a text that holds one value and nothing else but blanks. -/
def ofText? (text : String) : Option Json := do
  let (json, rest) ← readValue? text.toList.length text.toList
  if skipBlanks rest = [] then return json else none

theorem skipBlanks_cons {mark : Char} (noBlank : isBlank mark = false)
    (rest : List Char) :
    skipBlanks (mark :: rest) = mark :: rest :=
  List.dropWhile_cons_of_neg (by simp [noBlank])

/-! ## Strings -/

theorem hexValue?_digit {nibble : Nat} (small : nibble < 16) :
    hexValue? (Hex.digit nibble) = some nibble := by
  revert nibble
  decide

theorem readUnit?_control {code : Nat} (control : code < 0x20) (rest : List Char) :
    readUnit? ('0' :: '0' :: Hex.digit (code / 16) :: Hex.digit (code % 16) :: rest) =
      some (code, rest) := by
  have zero : hexValue? '0' = some 0 := by decide
  have high : hexValue? (Hex.digit (code / 16)) = some (code / 16) :=
    hexValue?_digit (by omega)
  have low : hexValue? (Hex.digit (code % 16)) = some (code % 16) :=
    hexValue?_digit (by omega)
  have whole : code / 16 * 16 + code % 16 = code := by omega
  simp [readUnit?, zero, high, low, whole]

/-- A character is read from its form in a string. -/
theorem readChar?_escapedChar (char : Char) (rest : List Char) :
    readChar? (escapedChar char ++ rest) = some (char, rest) := by
  unfold escapedChar
  split_ifs with quote backslash backspace feed newline return_ tab control
  · rw [quote]; rfl
  · rw [backslash]; rfl
  · rw [backspace]; rfl
  · rw [feed]; rfl
  · rw [newline]; rfl
  · rw [return_]; rfl
  · rw [tab]; rfl
  · have valid : char.toNat.isValidChar := char.valid
    simp [readChar?, readEscape?, readUnit?_control control, valid]
  · simp [readChar?, backslash, control]

theorem exists_escapedChar_eq_cons (char : Char) :
    ∃ first tail, escapedChar char = first :: tail ∧ first ≠ '"' := by
  unfold escapedChar
  split_ifs with quote
  all_goals first
    | exact ⟨_, _, rfl, by decide⟩
    | exact ⟨_, _, rfl, quote⟩

theorem readChars?_flatMap {steps : Nat} {chars : List Char}
    (enough : chars.length < steps) (rest : List Char) :
    readChars? steps (chars.flatMap escapedChar ++ '"' :: rest) =
      some (chars, rest) := by
  induction chars generalizing steps with
  | nil =>
    obtain ⟨steps, rfl⟩ := Nat.exists_eq_add_of_lt enough
    rfl
  | cons char chars ih =>
    cases steps with
    | zero => cases enough
    | succ steps =>
      have read := readChar?_escapedChar char (chars.flatMap escapedChar ++ '"' :: rest)
      obtain ⟨first, tail, form, noQuote⟩ := exists_escapedChar_eq_cons char
      rw [form, List.cons_append] at read
      rw [List.flatMap_cons, List.append_assoc, form, List.cons_append, readChars?,
        if_neg noQuote, read]
      simp [ih (Nat.lt_of_succ_lt_succ enough)]

theorem length_le_length_flatMap (chars : List Char) :
    chars.length ≤ (chars.flatMap escapedChar).length := by
  induction chars with
  | nil => exact Nat.le_refl _
  | cons char chars ih =>
    obtain ⟨first, tail, form, -⟩ := exists_escapedChar_eq_cons char
    rw [List.flatMap_cons, form, List.length_append, List.length_cons, List.length_cons]
    omega

/-- A string is read up to the quote at its end. -/
theorem readString?_flatMap (text : String) (rest : List Char) :
    readString? (text.toList.flatMap escapedChar ++ '"' :: rest) =
      some (text, rest) := by
  have enough : text.toList.length <
      (text.toList.flatMap escapedChar ++ '"' :: rest).length := by
    have characters := length_le_length_flatMap text.toList
    rw [List.length_append, List.length_cons]
    omega
  rw [readString?, readChars?_flatMap enough]
  simp

/-! ## Numbers -/

/-- What follows a number has to begin with something else than a digit. -/
def Ends (rest : List Char) : Prop :=
  ∀ char ∈ rest.head?, char.isDigit = false

theorem ends_cons {char : Char} (noDigit : char.isDigit = false) (rest : List Char) :
    Ends (char :: rest) := by
  simpa [Ends] using noDigit

theorem toDigits_plain (number : Nat) :
    ¬((Nat.toDigits 10 number).length > 1 ∧
      (Nat.toDigits 10 number).head? = some '0') := by
  rintro ⟨long, zero⟩
  apply Decimal.ofNat_plain number
  rw [Decimal.ofNat, List.length_map, List.head?_map, zero]
  exact ⟨long, rfl⟩

theorem readNatural?_toDigits (number : Nat) {rest : List Char} (ends : Ends rest) :
    readNatural? (Nat.toDigits 10 number ++ rest) = some (number, rest) := by
  have digits : ∀ char ∈ Nat.toDigits 10 number, char.isDigit = true :=
    fun char member => Nat.isDigit_of_mem_toDigits (by decide) (by decide) member
  have none : rest.takeWhile Char.isDigit = [] ∧
      rest.dropWhile Char.isDigit = rest := by
    cases rest with
    | nil => exact ⟨rfl, rfl⟩
    | cons char rest =>
      have other : ¬char.isDigit = true := by simp [ends char rfl]
      exact ⟨List.takeWhile_cons_of_neg other, List.dropWhile_cons_of_neg other⟩
  simp only [readNatural?, List.takeWhile_append_of_pos digits,
    List.dropWhile_append_of_pos digits, none, List.append_nil]
  rw [if_neg, Nat.ofDigitChars_toDigits (by decide) (by decide)]
  rintro (empty | superfluous)
  · exact Nat.toDigits_ne_nil empty
  · exact toDigits_plain number superfluous

theorem exists_toDigits_eq_cons (number : Nat) :
    ∃ first digits, Nat.toDigits 10 number = first :: digits ∧
      first.isDigit = true := by
  obtain ⟨first, digits, cons⟩ :=
    List.exists_cons_of_ne_nil (Nat.toDigits_ne_nil (b := 10) (n := number))
  refine ⟨first, digits, cons,
    Nat.isDigit_of_mem_toDigits (b := 10) (n := number) ?_ ?_ ?_⟩
  · decide
  · decide
  · rw [cons]
    exact List.mem_cons_self

theorem readNumber?_renderNumber (value : Int) {rest : List Char} (ends : Ends rest) :
    readNumber? (renderNumber value ++ rest) = some (value, rest) := by
  rw [renderNumber]
  split
  · rename_i negative
    rw [List.cons_append, readNumber?, if_pos rfl, readNatural?_toDigits _ ends]
    simp only [Option.map_some, Option.some.injEq, Prod.mk.injEq, and_true]
    omega
  · rename_i nonnegative
    obtain ⟨first, digits, cons, digit⟩ := exists_toDigits_eq_cons value.natAbs
    have noSign : first ≠ '-' := by
      rintro rfl
      cases digit
    rw [cons, List.cons_append, readNumber?, if_neg noSign, ← List.cons_append, ← cons,
      readNatural?_toDigits _ ends]
    simp only [Option.map_some, Option.some.injEq, Prod.mk.injEq, and_true]
    omega

/-- A number begins with nothing else than a digit or a minus sign. -/
theorem exists_renderNumber_eq_cons (value : Int) :
    ∃ first tail, renderNumber value = first :: tail ∧
      ∀ mark : Char, mark.isDigit = false → mark ≠ '-' → first ≠ mark := by
  rw [renderNumber]
  split
  · exact ⟨_, _, rfl, fun mark _ noSign => noSign.symm⟩
  · obtain ⟨first, digits, cons, digit⟩ := exists_toDigits_eq_cons value.natAbs
    refine ⟨first, digits, cons, ?_⟩
    rintro mark noDigit - rfl
    cases digit.symm.trans noDigit

/-! ## Sequences -/

section Sequences

variable {Element : Type} {close : Char}
  {read : List Char → Option (Element × List Char)} {write : Element → List Char}

theorem readElements?_last (noBlank : isBlank close = false) {element : Element}
    {chars rest : List Char} (found : read chars = some (element, close :: rest))
    (steps : Nat) :
    readElements? close read (steps + 1) chars = some ([element], rest) := by
  simp [readElements?, found, skipBlanks_cons noBlank]

theorem readElements?_next (notComma : close ≠ ',') {element : Element}
    {chars rest : List Char} (found : read chars = some (element, ',' :: rest))
    (steps : Nat) :
    readElements? close read (steps + 1) chars =
      (readElements? close read steps rest).map fun (elements, rest) =>
        (element :: elements, rest) := by
  have stays : skipBlanks (',' :: rest) = ',' :: rest := rfl
  simp only [readElements?, found, Option.bind_eq_bind, Option.bind_some, stays]
  rw [if_neg notComma.symm, if_true]
  cases readElements? close read steps rest <;> rfl

/-- Elements with commas between them are read one after the other, if each of them is
read from its text. -/
theorem readElements?_flatMap (notComma : close ≠ ',') (noBlank : isBlank close = false)
    (noDigit : close.isDigit = false) {first : Element} {elements : List Element}
    {steps : Nat} (each : ∀ element ∈ first :: elements, ∀ rest, Ends rest →
      read (write element ++ rest) = some (element, rest))
    (enough : elements.length < steps) (rest : List Char) :
    readElements? close read steps
        (write first ++
          (elements.flatMap (fun element => ',' :: write element) ++ close :: rest)) =
      some (first :: elements, rest) := by
  rw [List.forall_mem_cons] at each
  induction elements generalizing first steps with
  | nil =>
    obtain ⟨steps, rfl⟩ := Nat.exists_eq_add_of_lt enough
    exact readElements?_last noBlank (each.1 _ (ends_cons noDigit _)) _
  | cons next elements ih =>
    obtain ⟨steps, rfl⟩ := Nat.exists_eq_add_of_lt enough
    have fewer : elements.length < elements.length + 1 + steps := by omega
    have others := ih (List.forall_mem_cons.1 each.2) fewer
    rw [List.flatMap_cons, List.cons_append, List.cons_append, List.append_assoc,
      readElements?_next notComma (each.1 _ (ends_cons (by decide) _))]
    exact (congrArg (Option.map _) others).trans rfl

theorem readSequence?_intercalate (notComma : close ≠ ',')
    (noBlank : isBlank close = false) (noDigit : close.isDigit = false)
    {elements : List Element} {steps : Nat}
    (each : ∀ element ∈ elements, ∀ rest, Ends rest →
      read (write element ++ rest) = some (element, rest))
    (begins : ∀ element ∈ elements, ∃ first tail, write element = first :: tail ∧
      isBlank first = false ∧ first ≠ close)
    (enough : elements.length ≤ steps) (rest : List Char) :
    readSequence? close read steps
      ([','].intercalate (elements.map write) ++ close :: rest) =
      some (elements, rest) := by
  cases elements with
  | nil => simp [readSequence?, skipBlanks, noBlank]
  | cons first elements =>
    obtain ⟨mark, tail, form, notBlank, notClose⟩ := begins first List.mem_cons_self
    have others := readElements?_flatMap notComma noBlank noDigit each enough rest
    rw [form, List.cons_append] at others
    rw [intercalate_comma, List.append_assoc, form, List.cons_append, readSequence?,
      skipBlanks_cons notBlank]
    simp only
    rw [if_neg notClose, others]

theorem length_lt_length_flatMap (write : Element → List Char)
    (elements : List Element) :
    (∀ element ∈ elements,
      (write element).length <
        (elements.flatMap fun element => ',' :: write element).length) ∧
    elements.length ≤
      (elements.flatMap fun element => ',' :: write element).length := by
  induction elements with
  | nil => simp
  | cons first elements ih =>
    rw [List.flatMap_cons, List.length_append, List.length_cons, List.length_cons,
      List.forall_mem_cons]
    refine ⟨⟨by omega, fun element member => ?_⟩, by omega⟩
    have within := ih.1 element member
    omega

/-- Elements with commas between them are together as long as each of them, and no fewer
than they are many. -/
theorem length_le_length_intercalate (write : Element → List Char)
    (elements : List Element) :
    (∀ element ∈ elements,
      (write element).length ≤ ([','].intercalate (elements.map write)).length) ∧
    elements.length ≤ ([','].intercalate (elements.map write)).length + 1 := by
  cases elements with
  | nil => simp
  | cons first elements =>
    have lengths := length_lt_length_flatMap write elements
    rw [intercalate_comma, List.length_append, List.length_cons, List.forall_mem_cons]
    refine ⟨⟨by omega, fun element member => ?_⟩, by omega⟩
    have within := lengths.1 element member
    omega

end Sequences

/-! ## Trees -/

/-- The tree is read from its text, whatever follows. -/
def ReadsBack (json : Json) : Prop :=
  ∀ steps rest, json.render.length ≤ steps → Ends rest →
    readValue? steps (json.render ++ rest) = some (json, rest)

/-- No value begins with a blank or with the mark of the end of an array. -/
theorem exists_render_eq_cons (json : Json) :
    ∃ first tail, json.render = first :: tail ∧ isBlank first = false ∧
      first ≠ ']' := by
  cases json with
  | number value =>
    obtain ⟨first, tail, cons, other⟩ := exists_renderNumber_eq_cons value
    have noBlank : isBlank first = false := by simp [isBlank, other]
    exact ⟨first, tail, by rw [render_number, cons], noBlank, other ']' rfl (by decide)⟩
  | string text => exact ⟨_, _, by rw [render_string]; rfl, by decide, by decide⟩
  | array items => exact ⟨_, _, render_array items, by decide, by decide⟩
  | object members => exact ⟨_, _, render_object members, by decide, by decide⟩

theorem readsBack_number (value : Int) : ReadsBack (.number value) := by
  intro steps rest enough ends
  obtain ⟨first, tail, cons, other⟩ := exists_renderNumber_eq_cons value
  have noBlank : isBlank first = false := by simp [isBlank, other]
  have found := readNumber?_renderNumber value ends
  rw [render_number, cons] at enough ⊢
  rw [cons, List.cons_append] at found
  cases steps with
  | zero => cases enough
  | succ steps =>
    rw [List.cons_append, readValue?, skipBlanks_cons noBlank]
    simp only
    rw [if_neg (other _ rfl (by decide)), if_neg (other _ rfl (by decide)),
      if_neg (other _ rfl (by decide)), found]
    rfl

theorem readsBack_string (text : String) : ReadsBack (.string text) := by
  intro steps rest enough ends
  cases steps with
  | zero => simp [renderString, renderStringOnto] at enough
  | succ steps =>
    have found := readString?_flatMap text rest
    simp [renderString, renderStringOnto, readValue?, skipBlanks, isBlank, found]

theorem readsBack_array {items : List Json} (each : ∀ item ∈ items, ReadsBack item) :
    ReadsBack (.array items) := by
  intro steps rest enough ends
  rw [render_array] at enough ⊢
  cases steps with
  | zero => cases enough
  | succ steps =>
    obtain ⟨lengths, count⟩ := length_le_length_intercalate render items
    simp only [List.cons_append, List.length_cons, List.length_append, List.length_nil]
      at enough
    have found : readSequence? ']' (readValue? steps) steps
        ([','].intercalate (items.map render) ++ ']' :: rest) = some (items, rest) := by
      apply readSequence?_intercalate (by decide) (by decide) (by decide)
      · intro item member rest ends
        have within := lengths item member
        exact each item member steps rest (by omega) ends
      · exact fun item _ => exists_render_eq_cons item
      · omega
    simp [readValue?, skipBlanks, isBlank, found]

theorem readMember?_renderMember {read : List Char → Option (Json × List Char)}
    {member : String × Json} {rest : List Char}
    (found : read (member.2.render ++ rest) = some (member.2, rest)) :
    readMember? read (renderMember member ++ rest) = some (member, rest) := by
  have name := readString?_flatMap member.1 (':' :: (member.2.render ++ rest))
  simp [readMember?, renderMember, renderString, renderStringOnto, skipBlanks, isBlank,
    name, found]

theorem readsBack_object {members : List (String × Json)}
    (ascending : Entries.Ascending members)
    (each : ∀ member ∈ members, ReadsBack member.2) : ReadsBack (.object members) := by
  intro steps rest enough ends
  rw [render_object] at enough ⊢
  cases steps with
  | zero => cases enough
  | succ steps =>
    obtain ⟨lengths, count⟩ := length_le_length_intercalate renderMember members
    simp only [List.cons_append, List.length_cons, List.length_append, List.length_nil]
      at enough
    have found : readSequence? '\x7d' (readMember? (readValue? steps)) steps
        ([','].intercalate (members.map renderMember) ++ '\x7d' :: rest) =
          some (members, rest) := by
      apply readSequence?_intercalate (by decide) (by decide) (by decide)
      · intro element member rest ends
        have within := lengths element member
        simp only [renderMember, List.length_append, List.length_cons] at within
        exact readMember?_renderMember (each element member steps rest (by omega) ends)
      · exact fun element _ => ⟨_, _, rfl, by decide, by decide⟩
      · omega
    have kept : Entries.ofList members = members :=
      Entries.ofList_eq_of_perm (.refl _) ascending
    simp [readValue?, skipBlanks, isBlank, found, kept]

/-- The members of every object in the tree stand in ascending order of their names. -/
inductive Ordered : Json → Prop where
  | number (value : Int) : Ordered (.number value)
  | string (text : String) : Ordered (.string text)
  | array {items : List Json} : (∀ item ∈ items, Ordered item) → Ordered (.array items)
  | object {members : List (String × Json)} : Entries.Ascending members →
      (∀ member ∈ members, Ordered member.2) → Ordered (.object members)

theorem Ordered.readsBack {json : Json} (ordered : Ordered json) : ReadsBack json := by
  induction ordered with
  | number value => exact readsBack_number value
  | string text => exact readsBack_string text
  | array _ ih => exact readsBack_array ih
  | object ascending _ ih => exact readsBack_object ascending ih

/-- The compact text of a tree reads back as the tree. -/
theorem Ordered.ofText?_text {json : Json} (ordered : Ordered json) :
    ofText? json.text = some json := by
  have found := ordered.readsBack json.render.length [] (Nat.le_refl _) nofun
  rw [List.append_nil] at found
  rw [ofText?, text, String.toList_ofList, found]
  rfl

/-- Trees with the same compact text are the same. -/
theorem Ordered.eq_of_text_eq {left right : Json} (leftOrdered : Ordered left)
    (rightOrdered : Ordered right) (same : left.text = right.text) : left = right := by
  have found := leftOrdered.ofText?_text
  rw [same, rightOrdered.ofText?_text] at found
  exact (Option.some.inj found).symm

end Metainfo.Json
