import Metainfo.Pattern.Expression

/-!
# Automata

An expression becomes an automaton whose states are numbered.  A text is gone through
once with the set of all states that the automaton can be in; at every character a match
may begin.
-/

namespace Metainfo.Pattern

namespace Look

/-- Whether a character belongs to words. -/
def isWordChar (char? : Option Char) : Bool :=
  char?.any fun char => char.isAlphanum || char = '_'

/-- Whether a place between two characters is asked for; there is none at an end of the
text. -/
def holds (before? after? : Option Char) : Look → Bool
  | .textStart => before?.isNone
  | .textEnd => after?.isNone
  | .lineStart => before?.isNone || before? = some '\n'
  | .lineEnd => after?.isNone || after? = some '\n'
  | .anyLineStart =>
      before?.isNone || before? = some '\n' ||
        (before? = some '\r' && after? != some '\n')
  | .anyLineEnd =>
      after?.isNone || after? = some '\r' ||
        (after? = some '\n' && before? != some '\r')
  | .word edge _ =>
      match edge with
      | .boundary => isWordChar before? != isWordChar after?
      | .notBoundary => isWordChar before? == isWordChar after?
      | .start => !isWordChar before? && isWordChar after?
      | .finish => isWordChar before? && !isWordChar after?
      | .startHalf => !isWordChar before?
      | .finishHalf => !isWordChar after?

end Look

/-- A state of an automaton, with the states after it. -/
inductive State where
  /-- A match is complete. -/
  | accept
  /-- A character in one of the ranges is needed. -/
  | char (ranges : List (Nat × Nat)) (next : Nat)
  /-- A place is needed. -/
  | look (look : Look) (next : Nat)
  | either (left right : Nat)
  deriving DecidableEq, Repr

/-- An automaton and the state in which it begins. -/
structure Automaton where
  states : Array State
  start : Nat
  deriving DecidableEq, Repr

namespace Automaton

/-- The number of a state that is added, and the states with it. -/
def add (state : State) (states : Array State) : Nat × Array State :=
  (states.size, states.push state)

mutual

/-- Adds states that match an expression and go on with the state `next`; tells the
first of them. -/
def compile : Expression → (next : Nat) → Array State → Nat × Array State
  | .empty, next, states => (next, states)
  | .text chars, next, states =>
      chars.foldr (fun char (next, states) =>
        add (.char [(char.toNat, char.toNat)] next) states)
        (next, states)
  | .oneOf ranges, next, states => add (.char ranges next) states
  | .look look, next, states => add (.look look next) states
  | .repeated least most _ inner, next, states =>
      let (tail, states) := match most with
        | none =>
            let (loop, states) := add (.either next next) states
            let (first, states) := compile inner loop states
            (loop, states.setIfInBounds loop (.either first next))
        | some most =>
            Nat.repeat (fun (tail, states) =>
              let (first, states) := compile inner tail states
              add (.either first next) states) (most - least) (next, states)
      Nat.repeat (fun (tail, states) => compile inner tail states) least (tail, states)
  | .captured inner, next, states => compile inner next states
  | .sequence parts, next, states => compileAll parts next states
  | .alternatives branches, next, states => compileAny branches next states

/-- Adds states that match expressions one after the other. -/
def compileAll : List Expression → (next : Nat) → Array State → Nat × Array State
  | [], next, states => (next, states)
  | part :: parts, next, states =>
      let (tail, states) := compileAll parts next states
      compile part tail states

/-- Adds states that match one of several expressions. -/
def compileAny : List Expression → (next : Nat) → Array State → Nat × Array State
  | [], _, states => add (.char [] 0) states
  | [branch], next, states => compile branch next states
  | branch :: branches, next, states =>
      let (left, states) := compile branch next states
      let (right, states) := compileAny branches next states
      add (.either left right) states

end

/-- The automaton of an expression. -/
def ofExpression (expression : Expression) : Automaton :=
  let (start, states) := compile expression 0 #[.accept]
  ⟨states, start⟩

/-- The states that an automaton can be in: for each state the last round in which it
was met, the characters that are waited for with the states after them, and whether a
match is complete. -/
structure Front where
  met : Array Nat
  waiting : List (List (Nat × Nat) × Nat)
  accepted : Bool

/-- Adds to a front the states that are reached without a character from those pending,
in at most `count` steps. -/
def reach (states : Array State) (round : Nat) (before? after? : Option Char) :
    (count : Nat) → (pending : List Nat) → Front → Front
  | 0, _, front => front
  | _, [], front => front
  | count + 1, index :: pending, ⟨met, waiting, accepted⟩ =>
      if met.getD index round = round then
        reach states round before? after? count pending ⟨met, waiting, accepted⟩
      else
        let met := met.setIfInBounds index round
        match states.getD index .accept with
        | .accept =>
            reach states round before? after? count pending ⟨met, waiting, true⟩
        | .char ranges next =>
            reach states round before? after? count pending
              ⟨met, (ranges, next) :: waiting, accepted⟩
        | .look look next =>
            let pending :=
              if look.holds before? after? then next :: pending else pending
            reach states round before? after? count pending ⟨met, waiting, accepted⟩
        | .either left right =>
            reach states round before? after? count (left :: right :: pending)
              ⟨met, waiting, accepted⟩

/-- The states that are reached from those pending at a place, without a character. -/
def frontAt (automaton : Automaton) (round : Nat) (before? after? : Option Char)
    (pending : List Nat) (met : Array Nat) : Front :=
  reach automaton.states round before? after?
    (2 * automaton.states.size + pending.length) pending
    ⟨met, [], false⟩

/-- The round in which no state has been met. -/
def unmet (automaton : Automaton) : Array Nat :=
  Array.replicate automaton.states.size 0

/-- Whether the empty text matches between two octets of one character.  No character of
a word is next to such a place, and no end of a line. -/
def acceptsInside (automaton : Automaton) : Bool :=
  (automaton.frontAt 1 (some '\uFFFD') (some '\uFFFD') [automaton.start]
    automaton.unmet).accepted

/-- Whether a part of a text matches that begins in it or goes on from the states
`moved`.  The round tells how many characters were read before, counted from one.  If
the empty text matches `inside` characters, it does so before any match that has begun
earlier, and is then passed over together with all of these. -/
def acceptsFrom (automaton : Automaton) (inside : Bool) :
    (round : Nat) → (before? : Option Char) → (moved : List Nat) → (met : Array Nat) →
    List Char → Bool
  | round, before?, moved, met, chars =>
      let front :=
        automaton.frontAt round before? chars.head? (automaton.start :: moved) met
      front.accepted || match chars with
        | [] => false
        | char :: rest =>
            let moved :=
              if inside ∧ char.toNat ≥ 0x80 then []
              else front.waiting.filterMap fun (ranges, next) =>
                if Text.inRanges ranges char then some next else none
            acceptsFrom automaton inside (round + 1) (some char) moved front.met rest

/-- Whether some part of a text matches. -/
def occursIn (automaton : Automaton) (chars : List Char) : Bool :=
  automaton.acceptsFrom automaton.acceptsInside 1 none [] automaton.unmet chars

end Automaton

end Metainfo.Pattern
