import Metainfo.Pattern.Complaint
import Metainfo.Pattern.Expression
import Metainfo.Pattern.Tree

/-!
# The meaning of a pattern

The tree of a pattern becomes an expression.  Flags hold from where they stand to the
end of the group around them.  Classes by a property, letter classes and letters in
either case are known for ASCII only, and a pattern that is not about Unicode may match
no octets beyond ASCII one by one.
-/

namespace Metainfo.Pattern

/-- The flags that hold at a place of a pattern. -/
structure Mode where
  ignoreCase : Bool
  multiLine : Bool
  dotLineEnd : Bool
  swapGreed : Bool
  unicode : Bool
  carriageReturn : Bool
  deriving DecidableEq, Repr

namespace Mode

/-- The flags where none is given. -/
def default : Mode := ⟨false, false, false, false, true, false⟩

/-- The flags after some marks. -/
def apply (marks : List FlagMark) (mode : Mode) : Mode where
  ignoreCase := (stateOf? .ignoreCase marks true).getD mode.ignoreCase
  multiLine := (stateOf? .multiLine marks true).getD mode.multiLine
  dotLineEnd := (stateOf? .dotLineEnd marks true).getD mode.dotLineEnd
  swapGreed := (stateOf? .swapGreed marks true).getD mode.swapGreed
  unicode := (stateOf? .unicode marks true).getD mode.unicode
  carriageReturn := (stateOf? .carriageReturn marks true).getD mode.carriageReturn

/-- The greatest code point that the set of a class may hold. -/
def greatest (mode : Mode) : Nat :=
  if mode.unicode then CharSet.greatest else 0xFF

end Mode

/-- The ranges of a named class. -/
def NamedClass.ranges : NamedClass → List (Nat × Nat)
  | alnum => [(0x30, 0x39), (0x41, 0x5A), (0x61, 0x7A)]
  | alpha => [(0x41, 0x5A), (0x61, 0x7A)]
  | ascii => [(0x00, 0x7F)]
  | blank => [(0x09, 0x09), (0x20, 0x20)]
  | cntrl => [(0x00, 0x1F), (0x7F, 0x7F)]
  | digit => [(0x30, 0x39)]
  | graph => [(0x21, 0x7E)]
  | lower => [(0x61, 0x7A)]
  | print => [(0x20, 0x7E)]
  | punct => [(0x21, 0x2F), (0x3A, 0x40), (0x5B, 0x60), (0x7B, 0x7E)]
  | space => [(0x09, 0x0D), (0x20, 0x20)]
  | upper => [(0x41, 0x5A)]
  | word => [(0x30, 0x39), (0x41, 0x5A), (0x5F, 0x5F), (0x61, 0x7A)]
  | xdigit => [(0x30, 0x39), (0x41, 0x46), (0x61, 0x66)]

/-- The ranges of a letter class in ASCII. -/
def LetterClass.ranges : LetterClass → List (Nat × Nat)
  | digit => NamedClass.ranges .digit
  | space => NamedClass.ranges .space
  | word => NamedClass.ranges .word

/-- The name of a property as names are compared: in lower case, without spaces, low
lines and hyphens, without characters beyond ASCII, and without `is` in front. -/
def comparedName (name : List Char) : List Char :=
  let plain (name : List Char) : List Char :=
    (name.filter fun char =>
      char.toNat < 0x80 && char != ' ' && char != '_' && char != '-').map
      Char.toLower
  match name with
  | first :: second :: rest =>
      if first.toLower = 'i' ∧ second.toLower = 's' then
        if plain rest = ['c'] then "isc".toList else plain rest
      else plain name
  | _ => plain name

/-- The properties whose name is also that of a value of another property. -/
def valueNames : List (List Char) :=
  ["cf".toList, "sc".toList, "lc".toList]

/-- The fault of a class by a property. -/
def propertyFault (mode : Mode) (name : List Char) : Fault :=
  if mode.unicode = false then .notAscii
  else if comparedName name ∈ valueNames then .propertyValueUnknown
  else .propertyUnknown

/-- Adds to a set the letters of it in the other case, if the flags ask for it. -/
def foldCase (mode : Mode) (span : Span) (set : CharSet) : Except Complaint CharSet :=
  if mode.ignoreCase = false then .ok set
  else if mode.unicode = false then .ok set.closeAsciiCase
  else if set.caseClosed ∨ set.isEmpty then .ok { set with caseClosed := true }
  else .error ⟨span, .caseUnavailable⟩

/-- Completes the set of a class: adds the letters in the other case, then takes the
complement if the class is negated. -/
def completeSet (mode : Mode) (span : Span) (negated : Bool) (set : CharSet) :
    Except Complaint CharSet := do
  let folded ← foldCase mode span set
  let set := if negated then folded.complement mode.greatest else folded
  if mode.unicode = false ∧ set.isAscii = false then throw ⟨span, .notUtf8⟩
  return set

/-- The set of a letter class, which is known where the pattern is not about Unicode. -/
def letterSet (mode : Mode) (span : Span) (name : LetterClass) (negated : Bool) :
    Except Complaint CharSet :=
  let set := CharSet.ofRanges name.ranges
  if mode.unicode then .error ⟨span, .letterClassUnavailable⟩
  else if negated then .error ⟨span, .notUtf8⟩
  else .ok set

/-- Checks that a character can be matched by itself. -/
def checkLiteral (mode : Mode) (literal : Literal) : Except Complaint Char :=
  if mode.unicode = false ∧ literal.isOctet ∧ literal.char.toNat ≥ 0x80 then
    .error ⟨literal.span, .notUtf8⟩
  else .ok literal.char

/-- The code point of a character in a class. -/
def classCode (mode : Mode) (literal : Literal) : Except Complaint Nat := do
  let char ← checkLiteral mode literal
  if mode.unicode = false ∧ char.toNat ≥ 0x80 then throw ⟨literal.span, .notAscii⟩
  return char.toNat

mutual

/-- Adds to a set what stands in a class. -/
def ClassSet.addTo (mode : Mode) : ClassSet → CharSet → Except Complaint CharSet
  | .empty _, set => .ok set
  | .literal literal, set => do
      let code ← classCode mode literal
      return set.insert code code
  | .range _ low high, set => do
      return set.insert (← classCode mode low) (← classCode mode high)
  | .named span name negated, set => do
      return set.union (← completeSet mode span negated (CharSet.ofRanges name.ranges))
  | .letter span name negated, set => do
      return set.union (← letterSet mode span name negated)
  | .property span name, _ => .error ⟨span, propertyFault mode name⟩
  | .bracketed span negated inner, set => do
      return set.union (← completeSet mode span negated (← inner.addTo mode .empty))
  | .union _ items, set => addAllTo mode items set
  | .operation _ operation left right, set => do
      let leftSet ← left.addTo mode .empty
      let rightSet ← right.addTo mode .empty
      let rightSet ← foldCase mode right.span rightSet
      let leftSet ← foldCase mode left.span leftSet
      return set.union (match operation with
        | .intersection => leftSet.intersection rightSet
        | .difference => leftSet.difference rightSet
        | .symmetricDifference => leftSet.symmetricDifference rightSet)

/-- Adds to a set what the items of a class stand for. -/
def addAllTo (mode : Mode) : List ClassSet → CharSet → Except Complaint CharSet
  | [], set => .ok set
  | item :: items, set => do addAllTo mode items (← item.addTo mode set)

end

/-- The place that an assertion asks for. -/
def Assertion.look (mode : Mode) : Assertion → Look
  | lineStart =>
      if mode.multiLine then if mode.carriageReturn then .anyLineStart else .lineStart
      else .textStart
  | lineEnd =>
      if mode.multiLine then if mode.carriageReturn then .anyLineEnd else .lineEnd
      else .textEnd
  | textStart => .textStart
  | textEnd => .textEnd
  | wordEdge => .word .boundary mode.unicode
  | notWordEdge => .word .notBoundary mode.unicode
  | wordStart => .word .start mode.unicode
  | wordEnd => .word .finish mode.unicode
  | wordStartHalf => .word .startHalf mode.unicode
  | wordEndHalf => .word .finishHalf mode.unicode

/-- What the dot matches. -/
def dotMeaning (mode : Mode) (span : Span) : Except Complaint Expression :=
  if mode.unicode = false then .error ⟨span, .notUtf8⟩
  else if mode.dotLineEnd then .ok (.oneOf [(0, CharSet.greatest)])
  else if mode.carriageReturn then
    .ok (.oneOf [(0, 0x09), (0x0B, 0x0C), (0x0E, CharSet.greatest)])
  else .ok (.oneOf [(0, 0x09), (0x0B, CharSet.greatest)])

/-- What a character matches: itself, or itself and the letter in the other case. -/
def literalMeaning (mode : Mode) (literal : Literal) : Except Complaint Expression := do
  let char ← checkLiteral mode literal
  if mode.ignoreCase = false then return .text [char]
  if mode.unicode then throw ⟨literal.span, .caseUnavailable⟩
  if char.isAlpha then
    return .ofSet (CharSet.ofRanges [(char.toNat, char.toNat)]).closeAsciiCase.ranges
  return .text [char]

mutual

/-- What a tree matches under flags, and the flags after it. -/
def Tree.meaning (mode : Mode) : Tree → Except Complaint (Expression × Mode)
  | .empty _ => .ok (.empty, mode)
  | .flags _ marks => .ok (.empty, mode.apply marks)
  | .literal literal => do return (← literalMeaning mode literal, mode)
  | .dot span => do return (← dotMeaning mode span, mode)
  | .assertion _ assertion => .ok (.look (assertion.look mode), mode)
  | .letter span name negated => do
      return (.ofSet (← letterSet mode span name negated).ranges, mode)
  | .property span name => .error ⟨span, propertyFault mode name⟩
  | .bracketed span negated inner => do
      return (.ofSet
        (← completeSet mode span negated (← inner.addTo mode .empty)).ranges, mode)
  | .repetition _ least most greedy inner => do
      let (inner, after) ← inner.meaning mode
      return (.repeatedly least most (greedy != mode.swapGreed) inner, after)
  | .capture _ inner => do return (.captured (← inner.meaning mode).1, mode)
  | .group _ marks inner => do return ((← inner.meaning (mode.apply marks)).1, mode)
  | .alternation _ branches => do
      let (branches, mode) ← allMeanings mode branches
      return (.anyOf branches, mode)
  | .sequence _ parts => do
      let (parts, mode) ← allMeanings mode parts
      return (.inSequence parts, mode)

/-- What trees match, each under the flags after the one before it, and the flags after
the last. -/
def allMeanings (mode : Mode) : List Tree → Except Complaint (List Expression × Mode)
  | [] => .ok ([], mode)
  | tree :: trees => do
      let (first, mode) ← tree.meaning mode
      let (rest, mode) ← allMeanings mode trees
      return (first :: rest, mode)

end

end Metainfo.Pattern
