import Metainfo.Toml.DateTime
import Metainfo.Toml.Document
import Metainfo.Toml.Text

/-!
# Reading TOML

Statements stand on lines of their own.  Values other than strings, arrays and tables in
braces are words: maximal runs of characters none of which can follow a value.  Arrays
may go over several lines and hold comments, tables in braces may not.  Arrays and
braces nest less than eighty deep, and dotted keys have fewer than eighty parts.
-/

namespace Metainfo.Toml

/-- The number of levels of arrays and braces, and of parts of a dotted key, that is too
many. -/
def nestingLimit : Nat := 80

/-- The rest after blanks. -/
def skipBlanks (chars : List Char) : List Char :=
  chars.dropWhile isBlank

/-- The rest after a comment, if one stands at the front. -/
def skipComment : List Char → List Char
  | '#' :: rest => rest.dropWhile isVisible
  | chars => chars

/-- The rest after blanks, a comment and the end of the line, which at the end of the
document may be missing. -/
def endLine? (chars : List Char) : Option (List Char) :=
  match skipComment (skipBlanks chars) with
  | [] => some []
  | '\n' :: rest => some rest
  | '\r' :: '\n' :: rest => some rest
  | _ => none

/-- The rest after blanks, line ends and comments; `inComment` tells whether reading
stands in a comment. -/
def skipSpace? : (inComment : Bool) → List Char → Option (List Char)
  | _, [] => some []
  | true, char :: rest =>
      if char = '\n' then skipSpace? false rest
      else if isVisible char then skipSpace? true rest
      else if char = '\r' ∧ rest.head? = some '\n' then skipSpace? false rest
      else none
  | false, char :: rest =>
      if isBlank char ∨ char = '\n' then skipSpace? false rest
      else if char = '#' then skipSpace? true rest
      else if char = '\r' ∧ rest.head? = some '\n' then skipSpace? false rest
      else some (char :: rest)

/-- Whether a character may stand in a key without quotes. -/
def isBare (char : Char) : Bool :=
  char.isAlphanum || char == '_' || char == '-'

/-- One part of a key. -/
def readKeyPart? (chars : List Char) : Option (String × List Char) :=
  match chars with
  | '"' :: rest => readBasic false .none rest []
  | '\'' :: rest => readLiteral false rest []
  | _ =>
      match chars.takeWhile isBare with
      | [] => none
      | part => some (String.ofList part, chars.dropWhile isBare)

/-- The parts of a key with blanks around them, of which there may be `count`. -/
def readKey? : (count : Nat) → List Char → Option (List String × List Char)
  | 0, _ => none
  | count + 1, chars => do
      let (part, rest) ← readKeyPart? (skipBlanks chars)
      match skipBlanks rest with
      | '.' :: rest => do
          let (parts, rest) ← readKey? count rest
          return (part :: parts, rest)
      | rest => return ([part], rest)

/-- A key as the path to the table that holds it and its name there. -/
def readDotted? (chars : List Char) : Option (List String × String × List Char) := do
  let (parts, rest) ← readKey? (nestingLimit - 1) chars
  let name ← parts.getLast?
  return (parts.dropLast, name, rest)

/-- Whether a character may stand in a word. -/
def isWordChar (char : Char) : Bool :=
  char.isAlphanum || char == '+' || char == '-' || char == '_' || char == '.' ||
    char == ':'

/-- The value of a word. -/
def wordValue? (word : List Char) : Option Node :=
  if word = "true".toList then some (.boolean true)
  else if word = "false".toList then some (.boolean false)
  else
    match integer? word with
    | some value => some (.integer value)
    | none =>
        if isFloat word then some .float
        else if isDateTime word then some .dateTime
        else none

/-- Reads a word.  A date takes the time after a space with it. -/
def readWord? (chars : List Char) : Option (Node × List Char) :=
  let word := chars.takeWhile isWordChar
  let rest := chars.dropWhile isWordChar
  match rest with
  | ' ' :: digit :: _ =>
      if isDate word && digit.isDigit then
        let time := (rest.drop 1).takeWhile isWordChar
        (wordValue? (word ++ ' ' :: time)).map (·, (rest.drop 1).dropWhile isWordChar)
      else (wordValue? word).map (·, rest)
  | _ => (wordValue? word).map (·, rest)

/-- Reads the items of an array and its closing bracket with a reader for one item.  At
most `count` items are read. -/
def readItems? (readItem? : List Char → Option (Node × List Char)) :
    (count : Nat) → List Char → (done : List Node) → Option (List Node × List Char)
  | 0, _, _ => none
  | count + 1, chars, done => do
      match ← skipSpace? false chars with
      | ']' :: rest => return (done.reverse, rest)
      | chars => do
          let (item, rest) ← readItem? chars
          match ← skipSpace? false rest with
          | ',' :: rest => readItems? readItem? count rest (item :: done)
          | ']' :: rest => return ((item :: done).reverse, rest)
          | _ => none

/-- Reads an assignment with a reader for the value. -/
def readAssignment? (readValue? : List Char → Option (Node × List Char))
    (chars : List Char) : Option ((List String × String × Node) × List Char) := do
  let (parents, name, rest) ← readDotted? chars
  let rest ← expect? '=' rest
  let (value, rest) ← readValue? (skipBlanks rest)
  return ((parents, name, value), rest)

/-- Reads the assignments of a table in braces, at least one, and the closing brace.  At
most `count` assignments are read. -/
def readBraced? (readValue? : List Char → Option (Node × List Char)) :
    (count : Nat) → List Char → (done : Table) → Option (Table × List Char)
  | 0, _, _ => none
  | count + 1, chars, done => do
      let ((parents, name, value), rest) ← readAssignment? readValue? chars
      let done ← done.assign? name value parents
      match skipBlanks rest with
      | ',' :: rest => readBraced? readValue? count rest done
      | '\x7d' :: rest => return (done, rest)
      | _ => none

/-- Reads a value inside of which arrays and braces may nest `levels` deep. -/
def readNode? : (levels : Nat) → List Char → Option (Node × List Char)
  | 0, '[' :: _ => none
  | 0, '\x7b' :: _ => none
  | levels + 1, '[' :: rest => do
      let (items, rest) ← readItems? (readNode? levels) (rest.length + 1) rest []
      return (.array items, rest)
  | levels + 1, '\x7b' :: rest =>
      match skipBlanks rest with
      | '\x7d' :: rest => some (.inlineTable [], rest)
      | rest => do
          let (entries, rest) ← readBraced? (readNode? levels) (rest.length + 1) rest []
          return (.inlineTable entries, rest)
  | _, '"' :: rest => do
      let (text, rest) ← readText? ('"' :: rest)
      return (.string text, rest)
  | _, '\'' :: rest => do
      let (text, rest) ← readText? ('\'' :: rest)
      return (.string text, rest)
  | _, chars => readWord? chars

/-- Reads a header after its opening bracket. -/
def readHeader? (chars : List Char) : Option (Header × List Char) :=
  match chars with
  | '[' :: rest => do
      let (parents, name, rest) ← readDotted? rest
      let rest ← expect? ']' rest
      let rest ← expect? ']' rest
      return (⟨parents, name, true⟩, rest)
  | _ => do
      let (parents, name, rest) ← readDotted? chars
      let rest ← expect? ']' rest
      return (⟨parents, name, false⟩, rest)

/-- Reads the statement on one line, if there is one, up to the beginning of the next
line. -/
def readLine? (chars : List Char) : Option (Option Statement × List Char) :=
  match endLine? chars with
  | some rest => some (none, rest)
  | none =>
      match skipBlanks chars with
      | '[' :: rest => do
          let (header, rest) ← readHeader? rest
          return (some (.header header), ← endLine? rest)
      | chars => do
          let ((parents, name, value), rest) ← readAssignment?
            (readNode? (nestingLimit - 1)) chars
          return (some (.assign parents name value), ← endLine? rest)

/-- Reads lines to the end of the document, at most `count` of them. -/
def readLines? :
    (count : Nat) → List Char → (done : List Statement) → Option (List Statement)
  | _, [], done => some done.reverse
  | 0, _ :: _, _ => none
  | count + 1, chars, done => do
      let (statement, rest) ← readLine? chars
      readLines? count rest (statement.toList ++ done)

/-- The statements of a document.  A byte order mark in front of it is left out. -/
def statements? (text : String) : Option (List Statement) :=
  let chars := match text.toList with
    | '\uFEFF' :: rest => rest
    | chars => chars
  readLines? (chars.length + 1) chars []

/-- The table that a document describes. -/
def parse? (text : String) : Option Table := do
  assemble? (← statements? text)

end Metainfo.Toml
