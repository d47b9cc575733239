import Metainfo.Proofs.Entries
import Metainfo.Proofs.Toml.Integers

/-!
# Documents of lines

A line of a document may assign an integer to a key without quotes.  A document that is
made of such lines is read line by line, however the integers are written and whatever
blanks stand between the parts.  It describes the table in which every key has the
integer of its line, unless a key stands on two lines.
-/

namespace Metainfo.Toml

variable {chars rest stop blanks key trailing : List Char} {char : Char}

/-- A line that assigns an integer to a key without quotes.  Blanks may stand at its
beginning, before and after the equals sign, and at its end. -/
structure Line where
  key : String
  value : Int64
  literal : List Char
  indent : List Char
  before : List Char
  after : List Char
  trailing : List Char
  named : key ≠ ""
  bare : ∀ char ∈ key.toList, char.isAlphanum = true ∨ char = '_' ∨ char = '-'
  written : IntegerText literal value.toInt
  blank : ∀ char ∈ indent ++ before ++ after ++ trailing, char = ' ' ∨ char = '\t'

/-- The characters of a line without its end. -/
def Line.text (line : Line) : List Char :=
  line.indent ++ line.key.toList ++ line.before ++ '=' :: line.after ++ line.literal ++
    line.trailing

/-- How a line may end before the rest of the document. -/
inductive LineEnd : (stop rest : List Char) → Prop where
  | newline {rest : List Char} : LineEnd ['\n'] rest
  | returned {rest : List Char} : LineEnd ['\r', '\n'] rest
  | last : LineEnd [] []

/-- The document consists of the lines. -/
inductive Document : List Line → List Char → Prop where
  | empty : Document [] []
  | line {line : Line} {lines : List Line} {stop rest : List Char} :
      LineEnd stop rest → Document lines rest →
      Document (line :: lines) (line.text ++ stop ++ rest)

/-! ## Blanks and line ends -/

theorem isBlank_iff : isBlank char = true ↔ char = ' ' ∨ char = '\t' := by
  simp [isBlank]

theorem isBare_iff :
    isBare char = true ↔ char.isAlphanum = true ∨ char = '_' ∨ char = '-' := by
  simp [isBare, or_assoc]

theorem forall_bare_of_all (all : chars.all isBare = true) :
    ∀ char ∈ chars, char.isAlphanum = true ∨ char = '_' ∨ char = '-' :=
  fun char member => isBare_iff.1 (List.all_eq_true.1 all char member)

theorem skipBlanks_append (blank : ∀ char ∈ blanks, isBlank char = true) :
    skipBlanks (blanks ++ rest) = skipBlanks rest :=
  List.dropWhile_append_of_pos blank

theorem skipBlanks_cons (notBlank : isBlank char = false) :
    skipBlanks (char :: rest) = char :: rest :=
  List.dropWhile_cons_of_neg (by simp [notBlank])

theorem LineEnd.skipBlanks_eq (ends : LineEnd stop rest) :
    skipBlanks (stop ++ rest) = stop ++ rest := by
  cases ends with
  | newline => exact skipBlanks_cons rfl
  | returned => exact skipBlanks_cons rfl
  | last => rfl

/-- A line may end after blanks. -/
theorem endLine?_blanks (ends : LineEnd stop rest)
    (blank : ∀ char ∈ blanks, isBlank char = true) :
    endLine? (blanks ++ (stop ++ rest)) = some rest := by
  rw [endLine?, skipBlanks_append blank, ends.skipBlanks_eq]
  cases ends <;> rfl

theorem ne_of_isBare {other : Char} (bare : isBare char = true)
    (strange : isBare other = false) : char ≠ other := by
  rintro rfl
  rw [bare] at strange
  cases strange

theorem isBlank_of_isBare (bare : isBare char = true) : isBlank char = false := by
  have notSpace : char ≠ ' ' := ne_of_isBare bare rfl
  have notTab : char ≠ '\t' := ne_of_isBare bare rfl
  simp [isBlank, notSpace, notTab]

/-- No line ends where a key begins. -/
theorem endLine?_bare (blank : ∀ char ∈ blanks, isBlank char = true)
    (bare : isBare char = true) : endLine? (blanks ++ char :: rest) = none := by
  have noComment : skipComment (char :: rest) = char :: rest := by
    unfold skipComment
    split
    · next same => exact absurd (List.cons.inj same).1 (ne_of_isBare bare rfl)
    · rfl
  rw [endLine?, skipBlanks_append blank, skipBlanks_cons (isBlank_of_isBare bare),
    noComment]
  split
  · next same => cases same
  · next same => exact absurd (List.cons.inj same).1 (ne_of_isBare bare rfl)
  · next same => exact absurd (List.cons.inj same).1 (ne_of_isBare bare rfl)
  · rfl

/-- Characters with a property are told apart from the rest by the first one without
it. -/
theorem takeWhile_dropWhile_append {property : Char → Bool} {front : List Char}
    (inside : ∀ char ∈ front, property char = true)
    (stops : ∀ char, rest.head? = some char → property char = false) :
    (front ++ rest).takeWhile property = front ∧
    (front ++ rest).dropWhile property = rest := by
  rw [List.takeWhile_append_of_pos inside, List.dropWhile_append_of_pos inside]
  cases rest with
  | nil => exact ⟨List.append_nil _, rfl⟩
  | cons char others =>
    have stop : ¬property char = true := by simp [stops char rfl]
    rw [List.takeWhile_cons_of_neg stop, List.dropWhile_cons_of_neg stop,
      List.append_nil]
    exact ⟨rfl, rfl⟩

/-! ## Keys -/

/-- A key without quotes is read up to the first character that cannot stand in it. -/
theorem readKeyPart?_bare (named : key ≠ []) (bare : ∀ char ∈ key, isBare char = true)
    (stops : ∀ char, rest.head? = some char → isBare char = false) :
    readKeyPart? (key ++ rest) = some (String.ofList key, rest) := by
  obtain ⟨whole, behind⟩ := takeWhile_dropWhile_append bare stops
  obtain ⟨first, others, rfl⟩ := List.exists_cons_of_ne_nil named
  have isFirst := bare first List.mem_cons_self
  unfold readKeyPart?
  split
  · next same => exact absurd (List.cons.inj same).1 (ne_of_isBare isFirst rfl)
  · next same => exact absurd (List.cons.inj same).1 (ne_of_isBare isFirst rfl)
  · simp only [whole, behind]

/-- Neither a blank nor the equals sign stands in a key without quotes. -/
theorem isBare_of_head? {before : List Char}
    (spaced : ∀ char ∈ before, isBlank char = true) (char : Char)
    (head : (before ++ '=' :: rest).head? = some char) : isBare char = false := by
  cases before with
  | nil =>
    cases Option.some.inj head
    rfl
  | cons blank others =>
    cases Option.some.inj head
    rcases isBlank_iff.1 (spaced char List.mem_cons_self) with rfl | rfl <;> rfl

/-- A key before blanks is read up to the equals sign. -/
theorem readKey?_bare {before : List Char} (count : Nat) (named : key ≠ [])
    (bare : ∀ char ∈ key, isBare char = true)
    (spaced : ∀ char ∈ before, isBlank char = true) :
    readKey? (count + 1) (key ++ (before ++ '=' :: rest)) =
      some ([String.ofList key], '=' :: rest) := by
  have stops : ∀ char, (before ++ '=' :: rest).head? = some char →
      isBare char = false :=
    isBare_of_head? spaced
  have part := readKeyPart?_bare named bare stops
  have behind : skipBlanks (before ++ '=' :: rest) = '=' :: rest := by
    rw [skipBlanks_append spaced, skipBlanks_cons rfl]
  obtain ⟨first, others, rfl⟩ := List.exists_cons_of_ne_nil named
  have front : skipBlanks (first :: others ++ (before ++ '=' :: rest)) =
      first :: others ++ (before ++ '=' :: rest) :=
    skipBlanks_cons (isBlank_of_isBare (bare first List.mem_cons_self))
  rw [readKey?, front, part]
  simp only [Option.bind_eq_bind, Option.bind_some, behind]
  rfl

/-! ## Values -/

/-- An integer is read up to what cannot stand in a word, and is not mistaken for a date
before a time. -/
theorem readWord?_integer {literal : List Char} {value : Int64}
    (written : IntegerText literal value.toInt)
    (stops : ∀ char, rest.head? = some char → isWordChar char = false)
    (noTime : ∀ char more, rest = ' ' :: char :: more → char.isDigit = false) :
    readWord? (literal ++ rest) = some (.integer value, rest) := by
  have inside : ∀ char ∈ literal, isWordChar char = true := by
    intro char member
    have may := List.all_eq_true.1 written.all_isIntegerChar char member
    simp only [isIntegerChar, Bool.or_eq_true, beq_iff_eq] at may
    rcases may with ((decimal | rfl) | rfl) | rfl
    · simp [isWordChar, Char.isAlphanum, decimal]
    · rfl
    · rfl
    · rfl
  obtain ⟨whole, behind⟩ := takeWhile_dropWhile_append inside stops
  simp only [readWord?, whole, behind, written.wordValue?_eq, Option.map_some]
  split
  · next char more => simp [noTime char more rfl]
  · rfl

/-- A text that is no string, array or table in braces is read as a word. -/
theorem readNode?_word (levels : Nat) (notArray : char ≠ '[')
    (notBraced : char ≠ '\x7b') (notBasic : char ≠ '"') (notLiteral : char ≠ '\'') :
    readNode? levels (char :: rest) = readWord? (char :: rest) := by
  cases levels with
  | zero => simp [readNode?, notArray, notBraced, notBasic, notLiteral]
  | succ levels => simp [readNode?, notArray, notBraced, notBasic, notLiteral]

/-- An integer at the place of a value is read as a word. -/
theorem readNode?_integer {literal : List Char} {value : Int64} (levels : Nat)
    (written : IntegerText literal value.toInt)
    (stops : ∀ char, rest.head? = some char → isWordChar char = false)
    (noTime : ∀ char more, rest = ' ' :: char :: more → char.isDigit = false) :
    readNode? levels (literal ++ rest) = some (.integer value, rest) := by
  have word := readWord?_integer written stops noTime
  obtain ⟨first, others, rfl, differs⟩ := written.exists_cons
  rw [List.cons_append,
    readNode?_word levels (differs _ rfl) (differs _ rfl) (differs _ rfl)
    (differs _ rfl), ← List.cons_append, word]

/-- No blank stands in front of an integer. -/
theorem skipBlanks_integer {literal : List Char} {value : Int}
    (written : IntegerText literal value) :
    skipBlanks (literal ++ rest) = literal ++ rest := by
  obtain ⟨first, others, rfl, differs⟩ := written.exists_cons
  have notSpace : first ≠ ' ' := differs _ rfl
  have notTab : first ≠ '\t' := differs _ rfl
  exact skipBlanks_cons (by simp [isBlank, notSpace, notTab])

theorem isWordChar_of_isBlank (blank : isBlank char = true) :
    isWordChar char = false := by
  rcases isBlank_iff.1 blank with rfl | rfl <;> rfl

theorem isDigit_of_isBlank (blank : isBlank char = true) : char.isDigit = false := by
  rcases isBlank_iff.1 blank with rfl | rfl <;> rfl

/-- What follows the integer of a line does not belong to a word. -/
theorem LineEnd.isWordChar_of_head? (ends : LineEnd stop rest)
    (blank : ∀ char ∈ trailing, isBlank char = true) (char : Char)
    (head : (trailing ++ (stop ++ rest)).head? = some char) :
    isWordChar char = false := by
  cases trailing with
  | nil =>
    cases ends with
    | last => cases head
    | _ =>
      cases Option.some.inj head
      rfl
  | cons first others =>
    cases Option.some.inj head
    exact isWordChar_of_isBlank (blank char List.mem_cons_self)

/-- No time follows the integer of a line. -/
theorem LineEnd.isDigit_of_eq (ends : LineEnd stop rest)
    (blank : ∀ char ∈ trailing, isBlank char = true) (char : Char) (more : List Char)
    (same : trailing ++ (stop ++ rest) = ' ' :: char :: more) :
    char.isDigit = false := by
  match trailing with
  | [] => cases ends <;> cases same
  | [first] =>
    cases ends with
    | last => cases same
    | _ =>
      cases same
      rfl
  | first :: second :: others =>
    cases same
    exact isDigit_of_isBlank (blank char (List.mem_cons_of_mem _ List.mem_cons_self))

/-! ## Lines -/

namespace Line

variable {line : Line} {lines : List Line}

/-- What the line says. -/
def statement (line : Line) : Statement :=
  .assign [] line.key (.integer line.value)

theorem isBare_of_mem (line : Line) : ∀ char ∈ line.key.toList, isBare char = true :=
  fun char member => isBare_iff.2 (line.bare char member)

theorem key_ne_nil (line : Line) : line.key.toList ≠ [] := by
  intro empty
  exact line.named (String.toList_eq_nil_iff.1 empty)

/-- All blanks of a line are blanks. -/
theorem isBlank_of_mem (line : Line) (member : char ∈ line.indent ∨ char ∈ line.before ∨
    char ∈ line.after ∨ char ∈ line.trailing) : isBlank char = true := by
  apply isBlank_iff.2
  apply line.blank
  simp only [List.mem_append, or_assoc]
  exact member

theorem isBlank_of_mem_trailing (line : Line) :
    ∀ char ∈ line.trailing, isBlank char = true :=
  fun _ member => line.isBlank_of_mem (.inr (.inr (.inr member)))

theorem text_append (line : Line) (rest : List Char) :
    line.text ++ rest = line.indent ++ (line.key.toList ++ (line.before ++ '=' ::
      (line.after ++ (line.literal ++ (line.trailing ++ rest))))) := by
  simp [text]

/-- The key of a line has no parents. -/
theorem readDotted?_eq (line : Line) :
    readDotted? (line.key.toList ++ (line.before ++ '=' :: rest)) =
      some ([], line.key, '=' :: rest) := by
  have spaced : ∀ char ∈ line.before, isBlank char = true :=
    fun char member => line.isBlank_of_mem (.inr (.inl member))
  rw [readDotted?, show nestingLimit - 1 = nestingLimit - 2 + 1 from rfl,
    readKey?_bare _ line.key_ne_nil line.isBare_of_mem spaced, String.ofList_toList]
  rfl

/-- After its indentation a line is read as an assignment. -/
theorem readAssignment?_eq (line : Line) (levels : Nat) (ends : LineEnd stop rest) :
    readAssignment? (readNode? levels) (line.key.toList ++ (line.before ++ '=' ::
      (line.after ++ (line.literal ++ (line.trailing ++ (stop ++ rest)))))) =
      some (([], line.key, .integer line.value), line.trailing ++ (stop ++ rest)) := by
  have apart : ∀ char ∈ line.after, isBlank char = true :=
    fun char member => line.isBlank_of_mem (.inr (.inr (.inl member)))
  have value := readNode?_integer levels line.written
    (ends.isWordChar_of_head? line.isBlank_of_mem_trailing)
    (ends.isDigit_of_eq line.isBlank_of_mem_trailing)
  rw [readAssignment?, line.readDotted?_eq]
  simp only [Option.bind_eq_bind, Option.bind_some, expect?, if_true,
    skipBlanks_append apart, skipBlanks_integer line.written, value]
  rfl

/-- A line is read as what it says, up to the beginning of the next line. -/
theorem readLine?_eq (line : Line) (ends : LineEnd stop rest) :
    readLine? (line.text ++ (stop ++ rest)) = some (some line.statement, rest) := by
  have indented : ∀ char ∈ line.indent, isBlank char = true :=
    fun char member => line.isBlank_of_mem (.inl member)
  have assignment := line.readAssignment?_eq (nestingLimit - 1) ends
  obtain ⟨first, others, isKey⟩ := List.exists_cons_of_ne_nil line.key_ne_nil
  have isFirst : isBare first = true :=
    line.isBare_of_mem first (by rw [isKey]; exact List.mem_cons_self)
  rw [isKey, List.cons_append] at assignment
  rw [line.text_append, isKey, List.cons_append, readLine?,
    endLine?_bare indented isFirst]
  simp only [skipBlanks_append indented, skipBlanks_cons (isBlank_of_isBare isFirst)]
  split
  · next same => exact absurd (List.cons.inj same).1 (ne_of_isBare isFirst rfl)
  · simp only [assignment, Option.bind_eq_bind, Option.bind_some,
      endLine?_blanks ends line.isBlank_of_mem_trailing]
    rfl

end Line

/-! ## Documents -/

namespace Document

variable {line : Line} {lines : List Line}

theorem length_le (document : Document lines chars) : lines.length ≤ chars.length := by
  induction document with
  | empty => exact Nat.le_refl _
  | @line line lines stop rest ends document ih =>
    have positive := List.length_pos_iff.2 line.key_ne_nil
    simp only [Line.text, List.length_append, List.length_cons]
    omega

/-- The lines of a document are read one after the other. -/
theorem readLines?_eq (document : Document lines chars) {count : Nat}
    (enough : lines.length ≤ count) (done : List Statement) :
    readLines? count chars done = some (done.reverse ++ lines.map Line.statement) := by
  induction document generalizing count done with
  | empty => cases count <;> simp [readLines?]
  | @line line lines stop rest ends document ih =>
    cases count with
    | zero => cases enough
    | succ count =>
      have read := line.readLine?_eq ends
      rw [← List.append_assoc] at read
      obtain ⟨first, others, isText⟩ :
          ∃ first others, line.text ++ stop ++ rest = first :: others := by
        apply List.exists_cons_of_ne_nil
        simp [Line.text]
      rw [isText] at read ⊢
      rw [readLines?.eq_3 _ _ _ (List.cons_ne_nil _ _), read]
      simp only [Option.bind_eq_bind, Option.bind_some]
      rw [ih (by simpa using enough)]
      simp

/-- A document begins with no byte order mark. -/
theorem head?_ne (document : Document lines chars) : chars.head? ≠ some '\uFEFF' := by
  cases document with
  | empty => exact nofun
  | @line line _ _ _ _ _ =>
    intro head
    rw [List.append_assoc, line.text_append] at head
    cases isIndent : line.indent with
    | nil =>
      obtain ⟨first, others, isKey⟩ := List.exists_cons_of_ne_nil line.key_ne_nil
      rw [isIndent, isKey] at head
      cases Option.some.inj head
      exact absurd (line.isBare_of_mem '\uFEFF'
        (by rw [isKey]; exact List.mem_cons_self)) (by decide)
    | cons first others =>
      rw [isIndent] at head
      cases Option.some.inj head
      exact absurd (line.isBlank_of_mem
        (.inl (by rw [isIndent]; exact List.mem_cons_self))) (by decide)

/-- The statements of a document are those of its lines. -/
theorem statements?_eq {text : String} (document : Document lines text.toList) :
    statements? text = some (lines.map Line.statement) := by
  simp only [statements?]
  split
  · next same => exact absurd (by rw [same]; rfl) document.head?_ne
  · rw [document.readLines?_eq (by have := document.length_le; omega)]
    rfl

end Document

/-! ## Assembling -/

/-- Where nothing but keys without parents is assigned, every key is given once. -/
theorem assignAll?_eq (entries : List (String × Node)) (table : Table) :
    assignAll? (entries.map fun entry => ([], entry.1, entry.2)) table =
      if (Entries.keys entries).Nodup ∧
          ∀ key ∈ Entries.keys entries, key ∉ Entries.keys table then
        some (entries.foldl
          (fun done entry => Entries.insert entry.1 entry.2 done) table)
      else none := by
  induction entries generalizing table with
  | nil => simp [assignAll?]
  | cons entry entries ih =>
    rw [assignAll?, List.map_cons, List.foldlM_cons]
    by_cases given : entry.1 ∈ Entries.keys table
    · obtain ⟨value, held⟩ := Option.ne_none_iff_exists'.1
        fun free => Entries.get?_eq_none_iff.1 free given
      rw [if_neg fun both => both.2 entry.1 List.mem_cons_self given]
      simp [Table.assign?, Table.add?, held]
    · have added : Table.assign? entry.1 entry.2 [] table =
          some (Entries.insert entry.1 entry.2 table) := by
        rw [Table.assign?, Table.add?, Entries.get?_eq_none_iff.2 given]
      have rest := ih (Entries.insert entry.1 entry.2 table)
      rw [assignAll?] at rest
      simp only [added]
      refine Eq.trans rest (ite_congr (propext ?_) (fun _ => rfl) (fun _ => rfl))
      simp only [Entries.keys_cons, List.nodup_cons, List.mem_cons, forall_eq_or_imp,
        Entries.mem_keys_insert, not_or]
      constructor
      · rintro ⟨distinct, fresh⟩
        exact ⟨⟨fun member => (fresh _ member).1 rfl, distinct⟩, given,
          fun key member => (fresh key member).2⟩
      · rintro ⟨⟨once, distinct⟩, -, fresh⟩
        exact ⟨distinct, fun key member =>
          ⟨fun same => once (same ▸ member), fresh key member⟩⟩

/-- Statements that only assign stand in the table above all headers. -/
theorem takeAssignments_lines (lines : List Line) :
    takeAssignments (lines.map Line.statement) =
      (lines.map fun line => ([], line.key, .integer line.value), []) := by
  induction lines with
  | nil => rfl
  | cons line lines ih =>
    rw [List.map_cons, Line.statement, takeAssignments, ih]
    rfl

/-- What the lines assign. -/
def entriesOf (lines : List Line) : List (String × Node) :=
  lines.map fun line => (line.key, .integer line.value)

theorem keys_entriesOf (lines : List Line) :
    Entries.keys (entriesOf lines) = lines.map Line.key := by
  simp [Entries.keys, entriesOf]

/-- The document describes the table of its lines if every key stands on one line, and
none if a key stands on two. -/
theorem Document.parse?_eq {lines : List Line} {text : String}
    (document : Document lines text.toList) :
    parse? text =
      if (lines.map Line.key).Nodup then some (Entries.ofList (entriesOf lines))
      else none := by
  have assigned := assignAll?_eq (entriesOf lines) []
  rw [keys_entriesOf] at assigned
  simp only [entriesOf, List.map_map, Function.comp_def, Entries.keys_nil,
    List.not_mem_nil, not_false_eq_true, implies_true, and_true] at assigned
  simp only [parse?, document.statements?_eq, assemble?, takeAssignments_lines,
    assigned, Option.bind_eq_bind, Option.bind_some]
  split
  · simp [addSections?, Entries.ofList, entriesOf]
  · rfl

end Metainfo.Toml
