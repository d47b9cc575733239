import Metainfo.Pattern.Automaton
import Metainfo.Pattern.Footprint
import Metainfo.Pattern.Meaning
import Metainfo.Pattern.Reader

/-!
# Patterns

A pattern is a regular expression over the characters of a text: characters, classes,
places, repetitions, groups and alternatives.  A text that describes none is refused
with a reason.
-/

namespace Metainfo

/-- A pattern, ready to be looked for. -/
structure Pattern where
  automaton : Pattern.Automaton
  deriving DecidableEq, Repr

namespace Pattern

/-- Why a text is refused as a pattern. -/
inductive Refusal where
  | complaint (complaint : Complaint)
  /-- The automaton would take more memory than is allowed. -/
  | tooLarge
  /-- The words of Unicode are not known. -/
  | unicodeWords
  deriving DecidableEq, Repr

/-- The refusal of a text in words. -/
def Refusal.text (chars : List Char) : Refusal → String
  | .complaint found => found.text chars
  | .tooLarge => s!"Compiled regex exceeds size limit of {Footprint.limit} bytes."
  | .unicodeWords => "error building NFA"

/-- The expression that a text describes. -/
def expressionOf (chars : List Char) : Except Complaint Expression := do
  return (← (← readTree chars).meaning .default).1

/-- The pattern that a text describes. -/
def ofChars (chars : List Char) : Except Refusal Pattern :=
  match expressionOf chars with
  | .error complaint => .error (.complaint complaint)
  | .ok expression =>
      if Footprint.ofAutomaton .forward expression > Footprint.limit then
        .error .tooLarge
      else if expression.asksUnicodeWords then .error .unicodeWords
      else if Footprint.ofAutomaton .backward expression > Footprint.limit then
        .error .tooLarge
      else .ok ⟨.ofExpression expression⟩

/-- Whether some part of a text matches the pattern. -/
def occursIn (pattern : Pattern) (text : String) : Bool :=
  pattern.automaton.occursIn text.toList

end Pattern

end Metainfo
