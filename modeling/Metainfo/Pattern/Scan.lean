import Metainfo.Pattern.Complaint
import Metainfo.Text.Blank

/-!
# Scanning a pattern

A scan stands at a place of a pattern and holds the characters from there on.  Where a
pattern is spaced, white space and comments from a number sign to the line end are
skipped.
-/

namespace Metainfo.Pattern

/-- What is left of a pattern, and what was met before. -/
structure Scan where
  rest : List Char
  place : Place
  /-- White space and comments are skipped. -/
  spaced : Bool
  /-- The names of the groups so far. -/
  names : List (List Char × Span)

namespace Scan

/-- The scan of a whole pattern. -/
def ofChars (chars : List Char) : Scan :=
  ⟨chars, Place.first, false, []⟩

/-- Goes on after the next character, if there is one. -/
def advance (scan : Scan) : Scan :=
  match scan.rest with
  | [] => scan
  | char :: rest => { scan with rest, place := scan.place.after char }

/-- Goes on after a number of characters. -/
def advanceBy : (count : Nat) → Scan → Scan
  | 0, scan => scan
  | count + 1, scan => advanceBy count scan.advance

/-- What is left after white space, and the place where it begins. -/
def afterBlank : Place → List Char → Place × List Char
  | place, [] => (place, [])
  | place, char :: rest =>
      if Text.isBlank char then afterBlank (place.after char) rest
      else (place, char :: rest)

/-- What is left after white space and comments, and the place where it begins. -/
def afterComments : (inComment : Bool) → Place → List Char → Place × List Char
  | _, place, [] => (place, [])
  | true, place, char :: rest => afterComments (char != '\n') (place.after char) rest
  | false, place, char :: rest =>
      if Text.isBlank char then afterComments false (place.after char) rest
      else if char = '#' then afterComments true (place.after char) rest
      else (place, char :: rest)

/-- Skips white space. -/
def skipBlank (scan : Scan) : Scan :=
  let (place, rest) := afterBlank scan.place scan.rest
  { scan with rest, place }

/-- Skips white space and comments where the pattern is spaced. -/
def skip (scan : Scan) : Scan :=
  if scan.spaced then
    let (place, rest) := afterComments false scan.place scan.rest
    { scan with rest, place }
  else scan

/-- Goes on after the next character and what is skipped after it. -/
def next (scan : Scan) : Scan :=
  scan.advance.skip

/-- Whether nothing is left. -/
def atEnd (scan : Scan) : Bool :=
  scan.rest.isEmpty

/-- The character after the next one; in a spaced pattern the first that is neither
white space nor the number sign of a comment. -/
def second? (scan : Scan) : Option Char :=
  let following := scan.rest.tail
  if scan.spaced then
    match following.dropWhile Text.isBlank with
    | '#' :: comment => (comment.dropWhile Text.isBlank).head?.or following.head?
    | shown => shown.head?.or following.head?
  else following.head?

/-- The empty span where the scan stands. -/
def here (scan : Scan) : Span :=
  Span.point scan.place

/-- The span of the next character. -/
def charSpan (scan : Scan) : Span :=
  ⟨scan.place, scan.advance.place⟩

/-- The span from a place up to the scan. -/
def since (scan : Scan) (start : Place) : Span :=
  ⟨start, scan.place⟩

end Scan

end Metainfo.Pattern
