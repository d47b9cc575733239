import Metainfo.Pattern.Scan
import Metainfo.Pattern.Tree

/-!
# Escapes

What a backslash begins: a character that has a meaning otherwise, a control character,
a character by its code, a class by its letter or by its property, or an assertion.  All
readers here are given a scan that stands at the character they are named for.
-/

namespace Metainfo.Pattern

/-- A part of a pattern that is no group, no class in brackets and no repetition. -/
inductive Primitive where
  | literal (literal : Literal)
  | dot (span : Span)
  | assertion (span : Span) (assertion : Assertion)
  | letter (span : Span) (name : LetterClass) (negated : Bool)
  | property (span : Span) (name : List Char)

/-- Where a primitive stands. -/
def Primitive.span : Primitive → Span
  | .literal char => char.span
  | .dot span => span
  | .assertion span _ => span
  | .letter span _ _ => span
  | .property span _ => span

/-- A primitive as a tree. -/
def Primitive.toTree : Primitive → Tree
  | .literal char => .literal char
  | .dot span => .dot span
  | .assertion span place => .assertion span place
  | .letter span name negated => .letter span name negated
  | .property span name => .property span name

/-- The value of a hexadecimal digit of either case. -/
def hexValue? (char : Char) : Option Nat :=
  if '0' ≤ char ∧ char ≤ '9' then some (char.toNat - '0'.toNat)
  else if 'a' ≤ char ∧ char ≤ 'f' then some (char.toNat - 'a'.toNat + 10)
  else if 'A' ≤ char ∧ char ≤ 'F' then some (char.toNat - 'A'.toNat + 10)
  else none

/-- The character of a code, if there is one. -/
def charOf? (code : Nat) : Option Char :=
  if code.isValidChar then some (Char.ofNat code) else none

/-- Reads a number of hexadecimal digits, after those that make up `value`. -/
def readHexDigits : (count : Nat) → (value : Nat) → Scan → Except Complaint (Nat × Scan)
  | 0, value, scan => .ok (value, scan)
  | count + 1, value, scan =>
      match scan.rest with
      | [] => .error ⟨scan.here, .escapeUnfinished⟩
      | char :: _ =>
          match hexValue? char with
          | none => .error ⟨scan.charSpan, .hexDigit⟩
          | some digit => readHexDigits count (value * 16 + digit) scan.next

/-- Reads hexadecimal digits up to a closing brace or the end; `value?` is made up of
those before.  At most `count` are read. -/
def readHexBraced : (count : Nat) → (value? : Option Nat) → Scan →
    Except Complaint (Option Nat × Scan)
  | 0, value?, scan => .ok (value?, scan)
  | count + 1, value?, scan =>
      match scan.rest with
      | [] => .ok (value?, scan)
      | char :: _ =>
          if char = '\x7d' then .ok (value?, scan)
          else
            match hexValue? char with
            | none => .error ⟨scan.charSpan, .hexDigit⟩
            | some digit =>
                readHexBraced count (some (value?.getD 0 * 16 + digit)) scan.next

/-- Reads the code of a character after its letter: as many digits as the letter asks
for, or any number of them in braces.  The escape begins at `start`. -/
def readHex (start : Place) (count : Nat) (letter : Scan) :
    Except Complaint (Literal × Scan) := do
  let scan := letter.next
  match scan.rest with
  | [] => throw ⟨scan.here, .escapeUnfinished⟩
  | '\x7b' :: digits =>
      let (value?, close) ← readHexBraced digits.length none scan.next
      if close.atEnd then throw ⟨close.since scan.place, .escapeUnfinished⟩
      let after := close.next
      match value? with
      | none => throw ⟨after.since scan.place, .hexEmpty⟩
      | some value =>
          match charOf? value with
          | none => throw ⟨close.since scan.advance.place, .hexNoChar⟩
          | some char => return (⟨after.since start, char, false⟩, after)
  | _ =>
      let (value, after) ← readHexDigits count 0 scan
      match charOf? value with
      | none => throw ⟨after.since scan.place, .hexNoChar⟩
      | some char => return (⟨after.since start, char, count = 2⟩, after)

/-- The characters up to a closing brace or the end, at most `count` of them. -/
def upToBrace : (count : Nat) → (done : List Char) → Scan → List Char × Scan
  | 0, done, scan => (done.reverse, scan)
  | count + 1, done, scan =>
      match scan.rest with
      | [] => (done.reverse, scan)
      | char :: _ =>
          if char = '\x7d' then (done.reverse, scan)
          else upToBrace count (char :: done) scan.next

/-- Reads the name of a property after its letter: one character, or several in braces.
The escape begins at `start`. -/
def readProperty (start : Place) (letter : Scan) :
    Except Complaint (Primitive × Scan) :=
  let scan := letter.next
  match scan.rest with
  | [] => .error ⟨scan.here, .escapeUnfinished⟩
  | '\x7b' :: chars =>
      let (name, close) := upToBrace chars.length [] scan.next
      if close.atEnd then .error ⟨close.here, .escapeUnfinished⟩
      else .ok (.property (close.advance.since start) name, close.advance)
  | char :: _ =>
      if char = '\\' then .error ⟨scan.charSpan, .propertyEscape⟩
      else .ok (.property (scan.next.since start) [char], scan.next)

/-- Whether a character occurs in the name of an edge of words. -/
def isEdgeChar (char : Char) : Bool :=
  char.isAlpha || char = '-'

/-- The characters of the name of an edge of words, at most `count` of them. -/
def readEdgeName : (count : Nat) → (done : List Char) → Scan → List Char × Scan
  | 0, done, scan => (done.reverse, scan)
  | count + 1, done, scan =>
      match scan.rest with
      | [] => (done.reverse, scan)
      | char :: _ =>
          if isEdgeChar char then readEdgeName count (char :: done) scan.next
          else (done.reverse, scan)

/-- The assertion of the name of an edge of words. -/
def edge? (name : List Char) : Option Assertion :=
  if name = "start".toList then some .wordStart
  else if name = "end".toList then some .wordEnd
  else if name = "start-half".toList then some .wordStartHalf
  else if name = "end-half".toList then some .wordEndHalf
  else none

/-- Reads the name of an edge of words in braces, which the scan stands at.  What cannot
be a name is left to be read as a count.  The escape begins at `start`. -/
def readEdge? (start : Place) (brace : Scan) :
    Except Complaint (Option (Assertion × Scan)) :=
  let scan := brace.next
  match scan.rest with
  | [] => .error ⟨scan.since start, .wordEdgeUnfinished⟩
  | char :: rest =>
      if isEdgeChar char then
        let (name, close) := readEdgeName (rest.length + 1) [] scan
        if close.rest.head? ≠ some '\x7d' then
          .error ⟨close.since brace.place, .wordEdgeUnclosed⟩
        else
          match edge? name with
          | none => .error ⟨close.since scan.place, .wordEdgeUnknown⟩
          | some assertion => .ok (some (assertion, close.advance))
      else .ok none

/-- The class of a letter after a backslash, and whether it is negated. -/
def letterClass? : Char → Option (LetterClass × Bool)
  | 'd' => some (.digit, false)
  | 'D' => some (.digit, true)
  | 's' => some (.space, false)
  | 'S' => some (.space, true)
  | 'w' => some (.word, false)
  | 'W' => some (.word, true)
  | _ => none

/-- The control character of a letter after a backslash. -/
def control? : Char → Option Char
  | 'a' => some '\x07'
  | 'f' => some '\x0c'
  | 't' => some '\t'
  | 'n' => some '\n'
  | 'r' => some '\r'
  | 'v' => some '\x0b'
  | _ => none

/-- The assertion of a character after a backslash. -/
def assertion? : Char → Option Assertion
  | 'A' => some .textStart
  | 'z' => some .textEnd
  | 'b' => some .wordEdge
  | 'B' => some .notWordEdge
  | '<' => some .wordStart
  | '>' => some .wordEnd
  | _ => none

/-- Whether a character stands for itself after a backslash: one of ASCII that is no
letter, no digit and no angle bracket. -/
def isEscapable (char : Char) : Bool :=
  char.toNat < 0x80 && !char.isAlphanum && char != '<' && char != '>'

/-- How many digits the code of a character has after a letter. -/
def hexCount? : Char → Option Nat
  | 'x' => some 2
  | 'u' => some 4
  | 'U' => some 8
  | _ => none

/-- Reads an escape at its backslash. -/
def readEscape (backslash : Scan) : Except Complaint (Primitive × Scan) := do
  let start := backslash.place
  let scan := backslash.advance
  match scan.rest with
  | [] => throw ⟨scan.since start, .escapeUnfinished⟩
  | char :: _ =>
      let after := scan.advance
      let span := after.since start
      if char.isDigit then throw ⟨span, .backreference⟩
      if let some count := hexCount? char then
        let (literal, after) ← readHex start count scan
        return (.literal literal, after)
      if char = 'p' ∨ char = 'P' then
        return ← readProperty start scan
      if let some (name, negated) := letterClass? char then
        return (.letter span name negated, after)
      if isEscapable char then
        return (.literal ⟨span, char, false⟩, after)
      if let some control := control? char then
        return (.literal ⟨span, control, false⟩, after)
      match assertion? char with
      | none => throw ⟨span, .escapeUnknown⟩
      | some assertion =>
          if char = 'b' ∧ after.rest.head? = some '\x7b' then
            if let some (edge, after) ← readEdge? start after then
              return (.assertion (after.since start) edge, after)
          return (.assertion span assertion, after)

/-- Reads a primitive. -/
def readPrimitive (scan : Scan) : Except Complaint (Primitive × Scan) :=
  let after := scan.advance
  match scan.rest with
  | '\\' :: _ => readEscape scan
  | '.' :: _ => .ok (.dot scan.charSpan, after)
  | '^' :: _ => .ok (.assertion scan.charSpan .lineStart, after)
  | '$' :: _ => .ok (.assertion scan.charSpan .lineEnd, after)
  | char :: _ => .ok (.literal ⟨scan.charSpan, char, false⟩, after)
  | [] => .error ⟨scan.here, .escapeUnfinished⟩

end Metainfo.Pattern
