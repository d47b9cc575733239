import Metainfo.Pattern.Place

/-!
# Complaints about patterns

A complaint tells what is wrong with a pattern and where.  It is shown below the line of
the pattern that it is about, with a caret under each character of its span; the lines
of a pattern of several lines are numbered.
-/

namespace Metainfo.Pattern

/-- What is wrong with a pattern. -/
inductive Fault where
  | classEscape
  | classRangeOrder
  | classRangeEnd
  | classUnclosed
  | countTooLarge
  | hexEmpty
  | hexNoChar
  | hexDigit
  | escapeUnfinished
  | escapeUnknown
  | hyphenDangling
  /-- The flag was given before. -/
  | flagAgain (first : Span)
  /-- The hyphen was given before. -/
  | hyphenAgain (first : Span)
  | flagsUnfinished
  | flagUnknown
  /-- Another group has the name. -/
  | nameAgain (first : Span)
  | nameEmpty
  | nameChar
  | nameUnclosed
  | groupUnclosed
  | groupUnopened
  | tooNested (limit : Nat)
  | countOrder
  | countMissing
  | countUnclosed
  | nothingToRepeat
  | wordEdgeUnclosed
  | wordEdgeUnknown
  | wordEdgeUnfinished
  | propertyEscape
  | backreference
  | lookAround
  | notAscii
  | notUtf8
  | propertyUnknown
  | propertyValueUnknown
  | letterClassUnavailable
  | caseUnavailable
  deriving DecidableEq, Repr

namespace Fault

/-- The fault in words. -/
def message : Fault → String
  | classEscape => "invalid escape sequence found in character class"
  | classRangeOrder => "invalid character class range, the start must be <= the end"
  | classRangeEnd => "invalid range boundary, must be a literal"
  | classUnclosed => "unclosed character class"
  | countTooLarge => "decimal literal invalid"
  | hexEmpty => "hexadecimal literal empty"
  | hexNoChar => "hexadecimal literal is not a Unicode scalar value"
  | hexDigit => "invalid hexadecimal digit"
  | escapeUnfinished => "incomplete escape sequence, reached end of pattern prematurely"
  | escapeUnknown => "unrecognized escape sequence"
  | hyphenDangling => "dangling flag negation operator"
  | flagAgain _ => "duplicate flag"
  | hyphenAgain _ => "flag negation operator repeated"
  | flagsUnfinished => "expected flag but got end of regex"
  | flagUnknown => "unrecognized flag"
  | nameAgain _ => "duplicate capture group name"
  | nameEmpty => "empty capture group name"
  | nameChar => "invalid capture group character"
  | nameUnclosed => "unclosed capture group name"
  | groupUnclosed => "unclosed group"
  | groupUnopened => "unopened group"
  | tooNested limit =>
      "exceed the maximum number of nested parentheses/brackets (" ++
        toString limit ++ ")"
  | countOrder => "invalid repetition count range, the start must be <= the end"
  | countMissing => "repetition quantifier expects a valid decimal"
  | countUnclosed => "unclosed counted repetition"
  | nothingToRepeat => "repetition operator missing expression"
  | wordEdgeUnclosed =>
      "special word boundary assertion is either unclosed or contains an invalid " ++
        "character"
  | wordEdgeUnknown =>
      "unrecognized special word boundary assertion, valid choices are: start, end, " ++
        "start-half or end-half"
  | wordEdgeUnfinished =>
      "found either the beginning of a special word boundary or a bounded " ++
        "repetition on a \\b with an opening brace, but no closing brace"
  | propertyEscape => "invalid Unicode character class"
  | backreference => "backreferences are not supported"
  | lookAround => "look-around, including look-ahead and look-behind, is not supported"
  | notAscii => "Unicode not allowed here"
  | notUtf8 => "pattern can match invalid UTF-8"
  | propertyUnknown => "Unicode property not found"
  | propertyValueUnknown => "Unicode property value not found"
  | letterClassUnavailable =>
      "Unicode-aware Perl class not found (make sure the unicode-perl feature is " ++
        "enabled)"
  | caseUnavailable =>
      "Unicode-aware case insensitivity matching is not available (make sure the " ++
        "unicode-case feature is enabled)"

/-- The earlier part of the pattern that the fault is in conflict with. -/
def first? : Fault → Option Span
  | flagAgain first => some first
  | hyphenAgain first => some first
  | nameAgain first => some first
  | _ => none

end Fault

/-- A fault and where it is. -/
structure Complaint where
  span : Span
  fault : Fault
  deriving DecidableEq, Repr

namespace Complaint

/-- The lines of a text.  A carriage return before a line end belongs to it, and a line
end at the end begins no further line. -/
def linesOf (chars : List Char) : List (List Char) :=
  let pieces := chars.splitOnP (· == '\n')
  let ended := pieces.dropLast.map fun line =>
    if line.getLast? = some '\r' then line.dropLast else line
  match pieces.getLast? with
  | none | some [] => ended
  | some last => ended ++ [last]

/-- The spans that a complaint is about, the first one in front. -/
def spans (complaint : Complaint) : List Span :=
  match complaint.fault.first? with
  | none => [complaint.span]
  | some first =>
      if complaint.span.isBefore first then [complaint.span, first]
      else [first, complaint.span]

/-- Carets under the columns of spans of one line, `position` columns being filled
already. -/
def carets : (position : Nat) → List Span → List Char
  | _, [] => []
  | position, span :: spans =>
      let gap := span.start.column - 1 - position
      let width := max 1 (span.finish.column - span.start.column)
      List.replicate gap ' ' ++ List.replicate width '^' ++
        carets (position + gap + width) spans

/-- How many digits the numbers of the lines have; none if there is one line only. -/
def numberWidth (pattern : List Char) : Nat :=
  if pattern.contains '\n' then
    let more := if pattern.getLast? = some '\n' then 1 else 0
    (toString ((linesOf pattern).length + more)).length
  else 0

/-- A line of the pattern, and below it the carets of the spans on it. -/
def markedLine (width : Nat) (spans : List Span) (line : List Char) (number : Nat) :
    String :=
  let front :=
    if width = 0 then "    "
    else String.ofList ((toString number).toList.leftpad width ' ') ++ ": "
  let below :=
    match spans.filter fun span => span.isOneLine && span.start.line = number with
    | [] => ""
    | spans => String.ofList (List.replicate front.length ' ' ++ carets 0 spans) ++ "\n"
  front ++ String.ofList line ++ "\n" ++ below

/-- A note on a span of several lines. -/
def spanNote (span : Span) : String :=
  s!"on line {span.start.line} (column {span.start.column}) through line " ++
    s!"{span.finish.line} (column {span.finish.column - 1})\n"

/-- The complaint about a pattern as it is shown. -/
def text (pattern : List Char) (complaint : Complaint) : String :=
  let marked := String.join ((linesOf pattern).zipIdx 1 |>.map fun (line, number) =>
    markedLine (numberWidth pattern) complaint.spans line number)
  let shown :=
    if pattern.contains '\n' then
      let divider := String.ofList (List.replicate 79 '~') ++ "\n"
      divider ++ marked ++ divider ++
        String.join ((complaint.spans.filter fun span => !span.isOneLine).map spanNote)
    else marked
  "regex parse error:\n" ++ shown ++ "error: " ++ complaint.fault.message

end Complaint

end Metainfo.Pattern
