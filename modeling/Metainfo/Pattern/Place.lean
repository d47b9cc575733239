/-!
# Places in a text

A place is told by its line and its column, both counted from one, with one column for
each character.  A span reaches from one place up to another.
-/

namespace Metainfo.Pattern

/-- A place in a text. -/
structure Place where
  line : Nat
  column : Nat
  deriving DecidableEq, Repr

namespace Place

/-- Where a text begins. -/
def first : Place := ⟨1, 1⟩

/-- The place after a character. -/
def after (place : Place) (char : Char) : Place :=
  if char = '\n' then ⟨place.line + 1, 1⟩ else ⟨place.line, place.column + 1⟩

/-- Whether a place comes before another one. -/
def isBefore (left right : Place) : Bool :=
  left.line < right.line || (left.line = right.line && left.column < right.column)

end Place

/-- A part of a text, from its first place up to the place after it. -/
structure Span where
  start : Place
  finish : Place
  deriving DecidableEq, Repr

namespace Span

/-- The empty span at a place. -/
def point (place : Place) : Span := ⟨place, place⟩

/-- Whether a span begins and ends on one line. -/
def isOneLine (span : Span) : Bool :=
  span.start.line = span.finish.line

/-- Whether a span comes before another one: it begins earlier, or ends earlier if both
begin at one place. -/
def isBefore (left right : Span) : Bool :=
  left.start.isBefore right.start ||
    (left.start = right.start && left.finish.isBefore right.finish)

end Span

end Metainfo.Pattern
