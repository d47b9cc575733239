import Metainfo.Pattern.CharSet

/-!
# Expressions

What a pattern means: texts, sets of characters, places in the text, repetitions,
sequences and alternatives, without spans and flags.  The functions that build them
leave out what has no effect, join neighbouring texts and alternative characters, and
put in front what alternatives have in common.
-/

namespace Metainfo.Pattern

/-- How a place lies to words. -/
inductive WordEdge where
  /-- At one of the two ends of a word. -/
  | boundary
  | notBoundary
  | start
  | finish
  /-- Not after a character of a word. -/
  | startHalf
  /-- Not before a character of a word. -/
  | finishHalf
  deriving DecidableEq, Repr

/-- A place in a text. -/
inductive Look where
  | textStart
  | textEnd
  | lineStart
  | lineEnd
  /-- The start of a line that a carriage return, a line feed or both end. -/
  | anyLineStart
  /-- The end of such a line. -/
  | anyLineEnd
  /-- A place told by the words around it, whose characters are those of ASCII or of
  Unicode. -/
  | word (edge : WordEdge) (unicode : Bool)
  deriving DecidableEq, Repr

/-- What a pattern matches. -/
inductive Expression where
  | empty
  /-- A text of at least one character. -/
  | text (chars : List Char)
  | oneOf (ranges : List (Nat × Nat))
  | look (look : Look)
  | repeated (least : Nat) (most : Option Nat) (greedy : Bool) (inner : Expression)
  | captured (inner : Expression)
  | sequence (parts : List Expression)
  | alternatives (branches : List Expression)

namespace Expression

/-- How many octets a code point takes. -/
def octetCount (code : Nat) : Nat :=
  if code < 0x80 then 1 else if code < 0x800 then 2 else if code < 0x10000 then 3 else 4

/-- How many octets a text takes. -/
def textSize (chars : List Char) : Nat :=
  chars.foldl (fun size char => size + octetCount char.toNat) 0

mutual

/-- How many octets a match has at least, if there can be one. -/
def leastSize? : Expression → Option Nat
  | .empty => some 0
  | .text chars => some (textSize chars)
  | .oneOf ranges => ranges.head?.map fun range => octetCount range.1
  | .look _ => some 0
  | .repeated least _ _ inner => inner.leastSize?.map (· * least)
  | .captured inner => inner.leastSize?
  | .sequence parts => leastSizeOfAll? parts
  | .alternatives branches => leastSizeOfAny? branches

/-- How many octets matches one after the other have at least. -/
def leastSizeOfAll? : List Expression → Option Nat
  | [] => some 0
  | part :: parts => do return (← part.leastSize?) + (← leastSizeOfAll? parts)

/-- The least of the least sizes, if every one of the expressions can match. -/
def leastSizeOfAny? : List Expression → Option Nat
  | [] => none
  | [branch] => branch.leastSize?
  | branch :: branches => do
      return min (← branch.leastSize?) (← leastSizeOfAny? branches)

end

mutual

/-- Whether an expression can match only the empty text. -/
def onlyEmpty : Expression → Bool
  | .empty => true
  | .text _ => false
  | .oneOf _ => false
  | .look _ => true
  | .repeated _ most _ inner => most.isSome && inner.onlyEmpty
  | .captured inner => inner.onlyEmpty
  | .sequence parts => allOnlyEmpty parts
  | .alternatives branches => allOnlyEmpty branches

/-- Whether all expressions can match only the empty text. -/
def allOnlyEmpty : List Expression → Bool
  | [] => true
  | part :: parts => part.onlyEmpty && allOnlyEmpty parts

end

/-- One character of a set. -/
def ofSet (ranges : List (Nat × Nat)) : Expression :=
  match ranges with
  | [(low, high)] => if low = high then .text [Char.ofNat low] else .oneOf ranges
  | _ => .oneOf ranges

/-- A number of matches one after the other.  The empty text need not be repeated. -/
def repeatedly (least : Nat) (most : Option Nat) (greedy : Bool) (inner : Expression) :
    Expression :=
  let (least, most) :=
    if inner.onlyEmpty then (min least 1, some (min (most.getD 1) 1)) else (least, most)
  if least = 0 ∧ most = some 0 then .empty
  else if least = 1 ∧ most = some 1 then inner
  else .repeated least most greedy inner

/-- Puts a part in front of others. -/
def followedBy (part : Expression) (parts : List Expression) : List Expression :=
  match part, parts with
  | .empty, parts => parts
  | .text front, .text back :: parts => .text (front ++ back) :: parts
  | part, parts => part :: parts

/-- Parts one after the other. -/
def inSequence (parts : List Expression) : Expression :=
  let inner := parts.flatMap fun
    | .sequence parts => parts
    | part => [part]
  match inner.foldr followedBy [] with
  | [] => .empty
  | [part] => part
  | parts => .sequence parts

/-- The only character of a text. -/
def char? : Expression → Option Char
  | .text [char] => some char
  | _ => none

/-- The ranges of a set of characters. -/
def ranges? : Expression → Option (List (Nat × Nat))
  | .oneOf ranges => some ranges
  | _ => none

/-- The parts of a sequence. -/
def parts? : Expression → Option (List Expression)
  | .sequence parts => some parts
  | _ => none

mutual

/-- How many expressions an expression is made of. -/
def size : Expression → Nat
  | .repeated _ _ _ inner | .captured inner => inner.size + 1
  | .sequence parts => sizeOfAll parts + 1
  | .alternatives branches => sizeOfAll branches + 1
  | _ => 1

/-- How many expressions several expressions are made of. -/
def sizeOfAll : List Expression → Nat
  | [] => 0
  | part :: parts => part.size + sizeOfAll parts

end

mutual

/-- Whether two expressions are the same.  Groups differ, as every group is one of its
own. -/
def isSame : Expression → Expression → Bool
  | .empty, .empty => true
  | .text left, .text right => left = right
  | .oneOf left, .oneOf right => left = right
  | .look left, .look right => left = right
  | .repeated least most greedy inner, .repeated least' most' greedy' inner' =>
      least = least' && most = most' && greedy = greedy' && inner.isSame inner'
  | .sequence left, .sequence right => areSame left right
  | .alternatives left, .alternatives right => areSame left right
  | _, _ => false

/-- Whether two lists hold the same expressions. -/
def areSame : List Expression → List Expression → Bool
  | [], [] => true
  | left :: lefts, right :: rights => left.isSame right && areSame lefts rights
  | _, _ => false

end

/-- The expressions with which both of two lists begin. -/
def commonFront : List Expression → List Expression → List Expression
  | left :: lefts, right :: rights =>
      if left.isSame right then left :: commonFront lefts rights else []
  | _, _ => []

/-- One branch or another.  Alternatives of single characters, or of sets, are one set.
If all are sequences that begin with the same parts, these parts stand in front; then
what follows them in the branches is treated likewise, at most `count` times. -/
def anyOfWithin (count : Nat) (branches : List Expression) : Expression :=
  let inner := branches.flatMap fun
    | .alternatives branches => branches
    | branch => [branch]
  match inner with
  | [] => .oneOf []
  | [branch] => branch
  | first :: others =>
      match (first :: others).mapM char?, (first :: others).mapM ranges? with
      | some chars, _ =>
          ofSet (CharSet.normalize (chars.map fun char => (char.toNat, char.toNat)))
      | none, some ranges => ofSet (CharSet.normalize ranges.flatten)
      | none, none =>
          match count, first.parts?, others.mapM parts? with
          | count + 1, some parts, some rest =>
              match rest.foldl commonFront parts with
              | [] => .alternatives (first :: others)
              | front =>
                  let behind :=
                    (parts :: rest).map fun parts =>
                      inSequence (parts.drop front.length)
                  inSequence (front ++ [anyOfWithin count behind])
          | _, _, _ => .alternatives (first :: others)

/-- One branch or another. -/
def anyOf (branches : List Expression) : Expression :=
  anyOfWithin (sizeOfAll branches) branches

mutual

/-- Whether the expression asks for an edge of words in Unicode. -/
def asksUnicodeWords : Expression → Bool
  | .look (.word _ unicode) => unicode
  | .repeated _ _ _ inner | .captured inner => inner.asksUnicodeWords
  | .sequence parts => anyAsksUnicodeWords parts
  | .alternatives branches => anyAsksUnicodeWords branches
  | _ => false

/-- Whether one of the expressions asks for an edge of words in Unicode. -/
def anyAsksUnicodeWords : List Expression → Bool
  | [] => false
  | part :: parts => part.asksUnicodeWords || anyAsksUnicodeWords parts

end

end Expression

end Metainfo.Pattern
