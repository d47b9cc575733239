import Metainfo.Pattern.Place

/-!
# Trees of patterns

The parts of a pattern as they are written, each with the span where it stands.
-/

namespace Metainfo.Pattern

/-- What a letter among the flags of a group switches. -/
inductive Flag where
  /-- Letters match in either case. -/
  | ignoreCase
  /-- The two ends of lines are found as well as those of the text. -/
  | multiLine
  /-- The dot matches the line end, too. -/
  | dotLineEnd
  /-- Repetitions take as little as they can. -/
  | swapGreed
  /-- Characters are those of Unicode, not only those of ASCII. -/
  | unicode
  /-- A carriage return ends a line, too. -/
  | carriageReturn
  /-- White space and comments are left out. -/
  | spaced
  deriving DecidableEq, Repr

/-- A mark among the flags of a group: a flag, or the hyphen that switches off those
after it. -/
structure FlagMark where
  span : Span
  flag : Option Flag
  deriving DecidableEq, Repr

/-- What the marks say about a flag: switched on, switched off, or nothing. -/
def stateOf? (flag : Flag) : List FlagMark → (on : Bool) → Option Bool
  | [], _ => none
  | mark :: marks, on =>
      match mark.flag with
      | none => stateOf? flag marks false
      | some found => if found = flag then some on else stateOf? flag marks on

/-- A character that stands for itself; `isOctet` if it is written as two hexadecimal
digits. -/
structure Literal where
  span : Span
  char : Char
  isOctet : Bool
  deriving DecidableEq, Repr

/-- The classes that a letter after a backslash stands for. -/
inductive LetterClass where
  | digit
  | space
  | word
  deriving DecidableEq, Repr

/-- The classes of ASCII that have a name. -/
inductive NamedClass where
  | alnum
  | alpha
  | ascii
  | blank
  | cntrl
  | digit
  | graph
  | lower
  | print
  | punct
  | space
  | upper
  | word
  | xdigit
  deriving DecidableEq, Repr

/-- The places in a text that a pattern can ask for. -/
inductive Assertion where
  | lineStart
  | lineEnd
  | textStart
  | textEnd
  | wordEdge
  | notWordEdge
  | wordStart
  | wordEnd
  | wordStartHalf
  | wordEndHalf
  deriving DecidableEq, Repr

/-- The operations on sets of characters. -/
inductive SetOperation where
  | intersection
  | difference
  | symmetricDifference
  deriving DecidableEq, Repr

/-- What stands between the brackets of a class. -/
inductive ClassSet where
  | empty (span : Span)
  | literal (literal : Literal)
  | range (span : Span) (low high : Literal)
  | named (span : Span) (name : NamedClass) (negated : Bool)
  | letter (span : Span) (name : LetterClass) (negated : Bool)
  | property (span : Span) (name : List Char)
  | bracketed (span : Span) (negated : Bool) (inner : ClassSet)
  | union (span : Span) (items : List ClassSet)
  | operation (span : Span) (operation : SetOperation) (left right : ClassSet)

/-- Where a set stands. -/
def ClassSet.span : ClassSet → Span
  | .empty span => span
  | .literal char => char.span
  | .range span _ _ => span
  | .named span _ _ => span
  | .letter span _ _ => span
  | .property span _ => span
  | .bracketed span _ _ => span
  | .union span _ => span
  | .operation span _ _ _ => span

/-- A part of a pattern. -/
inductive Tree where
  | empty (span : Span)
  /-- Flags for what follows in the group. -/
  | flags (span : Span) (marks : List FlagMark)
  | literal (literal : Literal)
  | dot (span : Span)
  | assertion (span : Span) (assertion : Assertion)
  | letter (span : Span) (name : LetterClass) (negated : Bool)
  | property (span : Span) (name : List Char)
  | bracketed (span : Span) (negated : Bool) (inner : ClassSet)
  /-- A repetition, which takes as much as it can or as little. -/
  | repetition (span : Span) (least : Nat) (most : Option Nat) (greedy : Bool)
      (inner : Tree)
  | capture (span : Span) (inner : Tree)
  /-- A group that only holds together, with flags for its inside. -/
  | group (span : Span) (marks : List FlagMark) (inner : Tree)
  | alternation (span : Span) (branches : List Tree)
  | sequence (span : Span) (parts : List Tree)

/-- Where a part stands. -/
def Tree.span : Tree → Span
  | .empty span => span
  | .flags span _ => span
  | .literal char => char.span
  | .dot span => span
  | .assertion span _ => span
  | .letter span _ _ => span
  | .property span _ => span
  | .bracketed span _ _ => span
  | .repetition span _ _ _ _ => span
  | .capture span _ => span
  | .group span _ _ => span
  | .alternation span _ => span
  | .sequence span _ => span

end Metainfo.Pattern
