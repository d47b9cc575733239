import Metainfo.Pattern.Expression
import Metainfo.Pattern.OctetRanges

/-!
# The size of an expression

The size of an expression is the memory of an automaton that matches it octet by octet,
forwards with its groups or backwards without them.  It bounds how far counted
repetitions may be nested.
-/

namespace Metainfo.Pattern

/-- Which way an automaton goes through a text. -/
inductive Direction where
  | forward
  | backward
  deriving DecidableEq, Repr

namespace Footprint

/-- The memory of a state. -/
def state : Nat := 32

/-- The memory of a branch of a state that goes several ways. -/
def branch : Nat := 4

/-- The memory of a transition of a state that tells several ranges of octets apart. -/
def transition : Nat := 8

/-- The states that tell the octets of a set apart: each as its ranges with the number
of the state after it.  Equal states are one. -/
abbrev OctetStates := List (List ((Nat × Nat) × Nat))

/-- Adds the states for some sequences of at most `length` ranges, and tells the number
of their first state, or zero for the end. -/
def addStates : (length : Nat) → List OctetSequence → OctetStates → Nat × OctetStates
  | 0, _, states => (0, states)
  | length + 1, sequences, states =>
      match OctetSequence.byFirst sequences with
      | [] => (0, states)
      | groups =>
          let (transitions, states) := groups.foldl
            (fun (transitions, states) (range, rests) =>
              let (next, states) := addStates length rests states
              ((range, next) :: transitions, states))
            ([], states)
          match states.idxOf? transitions with
          | some index => (index + 1, states)
          | none => (states.length + 1, states ++ [transitions])

/-- The sum of sizes. -/
def total (sizes : List Nat) : Nat :=
  sizes.foldl (· + ·) 0

/-- The number of states of a tree of sequences of at most `length` ranges. -/
def treeStates : (length : Nat) → List OctetSequence → Nat
  | 0, _ => 0
  | length + 1, sequences =>
      total ((OctetSequence.byFirst sequences).map fun (_, rests) =>
        1 + treeStates length rests)

/-- The size of a set of characters. -/
def ofSet (direction : Direction) (ranges : List (Nat × Nat)) : Nat :=
  if ranges.all fun range => range.2 < 0x80 then 2 * state + transition * ranges.length
  else
    let sequences := OctetSequence.ofRanges ranges
    match direction with
    | .forward =>
        let states := (addStates 4 sequences []).2
        state +
          total (states.map fun transitions => state + transition * transitions.length)
    | .backward =>
        2 * state + branch * sequences.length + state * treeStates 4 sequences

/-- The texts of a list up to each empty one, after which further texts count as
alternatives of their own. -/
def chunks (texts : List (List Nat)) : List (List (List Nat)) :=
  texts.splitOnP (·.isEmpty)

/-- The first octets of texts, each once, with what follows them. -/
def byFirstOctet (texts : List (List Nat)) : List (Nat × List (List Nat)) :=
  texts.foldl (fun groups text =>
    match text with
    | [] => groups
    | octet :: rest =>
        match groups.findIdx? fun group => group.1 = octet with
        | none => groups ++ [(octet, [rest])]
        | some index => groups.modify index fun group => (octet, group.2 ++ [rest])) []

/-- The size of a tree of alternative texts of at most `length` octets, without its
end. -/
def ofTexts : (length : Nat) → List (List Nat) → Nat
  | 0, _ => 0
  | length + 1, texts =>
      let parts := (chunks texts).map byFirstOctet
      if parts.all List.isEmpty then 0
      else
        let ways := parts.filter fun groups => !groups.isEmpty
        let inside := total (ways.map fun groups =>
          state + (if groups.length = 1 then 0 else transition * groups.length) +
            total (groups.map fun (_, rests) => ofTexts length rests))
        state + branch * (ways.length + (parts.length - 1)) + inside

/-- The octets of a text in the order in which an automaton meets them. -/
def textOctets (direction : Direction) (chars : List Char) : List Nat :=
  let octets := chars.flatMap fun char => OctetSequence.octets char.toNat
  match direction with
  | .forward => octets
  | .backward => octets.reverse

/-- The text of an expression that is one. -/
def text? : Expression → Option (List Char)
  | .text chars => some chars
  | _ => none

/-- The size of alternative texts. -/
def ofAlternativeTexts (direction : Direction) (texts : List (List Char)) : Nat :=
  let octets := texts.map (textOctets direction)
  state + ofTexts ((octets.map List.length).foldl max 0 + 1) octets

/-- The size of a repetition of a part of a given size. -/
def ofRepetition (least : Nat) (most : Option Nat) (neverEmpty : Bool) (inner : Nat) :
    Nat :=
  match most with
  | none =>
      if least = 0 then
        if neverEmpty then state + 2 * branch + inner
        else 3 * state + 4 * branch + inner
      else state + 2 * branch + least * inner
  | some most =>
      if least = 0 ∧ most = 1 then 2 * state + 2 * branch + inner
      else if least = most then least * inner
      else
        (if least = 0 then state else least * inner) + state +
          (most - least) * (state + 2 * branch + inner)

mutual

/-- The size of an expression. -/
def ofExpression (direction : Direction) : Expression → Nat
  | .empty => state
  | .text chars => state * Expression.textSize chars
  | .oneOf ranges => ofSet direction ranges
  | .look _ => state
  | .repeated least most _ inner =>
      ofRepetition least most (inner.leastSize?.any (0 < ·))
        (ofExpression direction inner)
  | .captured inner =>
      (if direction = .forward then 2 * state else 0) + ofExpression direction inner
  | .sequence parts => ofExpressions direction parts
  | .alternatives branches =>
      match branches.mapM text? with
      | some texts => ofAlternativeTexts direction texts
      | none => 2 * state + branch * branches.length + ofExpressions direction branches

/-- The size of several expressions together. -/
def ofExpressions (direction : Direction) : List Expression → Nat
  | [] => 0
  | part :: parts => ofExpression direction part + ofExpressions direction parts

end

mutual

/-- Whether every match begins at the start of the text, or ends at its end. -/
def isAnchored (direction : Direction) : Expression → Bool
  | .look look =>
      match direction with
      | .forward => look = .textStart
      | .backward => look = .textEnd
  | .repeated least _ _ inner => 0 < least && isAnchored direction inner
  | .captured inner => isAnchored direction inner
  | .sequence parts =>
      match direction with
      | .forward => anyFrontAnchored parts
      | .backward => (anyBackAnchored parts).1
  | .alternatives branches => allAnchored direction branches
  | _ => false

/-- Whether one of the first parts, up to one that can match more than the empty text,
is anchored at the start of the text. -/
def anyFrontAnchored : List Expression → Bool
  | [] => false
  | part :: parts =>
      isAnchored .forward part || (part.onlyEmpty && anyFrontAnchored parts)

/-- Whether one of the last parts, back to one that can match more than the empty text,
is anchored at the end of the text, and whether all parts match only the empty text. -/
def anyBackAnchored : List Expression → Bool × Bool
  | [] => (false, true)
  | part :: parts =>
      let (found, clear) := anyBackAnchored parts
      (found || (clear && isAnchored .backward part), clear && part.onlyEmpty)

/-- Whether all alternatives are anchored. -/
def allAnchored (direction : Direction) : List Expression → Bool
  | [] => true
  | branch :: branches => isAnchored direction branch && allAnchored direction branches

end

/-- The size of the whole automaton: what leads to a match, the match as a group of its
own if groups are kept, and its end. -/
def ofAutomaton (direction : Direction) (expression : Expression) : Nat :=
  let search :=
    if isAnchored direction expression then state
    else 3 * state + transition + 2 * branch
  let group := if direction = .forward then 2 * state else 0
  search + group + ofExpression direction expression + state

/-- The greatest size that is allowed. -/
def limit : Nat := 10 * 1024 * 1024

end Footprint

end Metainfo.Pattern
