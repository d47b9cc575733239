/-!
# Log records

A record has a level of importance, a target that tells which part of the program wrote
it, and a message.  A threshold lets through the records of one level and of all more
important ones.
-/

namespace Metainfo.Log

/-- The levels of importance, the most important first. -/
inductive Level where
  | error
  | warn
  | info
  | debug
  | trace
  deriving DecidableEq, Repr

namespace Level

/-- How verbose a level is, from one for errors to five for traces. -/
def verbosity : Level → Nat
  | .error => 1
  | .warn => 2
  | .info => 3
  | .debug => 4
  | .trace => 5

/-- The name of a level. -/
def name : Level → String
  | .error => "ERROR"
  | .warn => "WARN"
  | .info => "INFO"
  | .debug => "DEBUG"
  | .trace => "TRACE"

end Level

/-- Which records are let through: none, or those up to a level. -/
inductive Threshold where
  | off
  | upTo (level : Level)
  deriving DecidableEq, Repr

namespace Threshold

/-- Whether records of a level are let through. -/
def allows : Threshold → Level → Bool
  | .off, _ => false
  | .upTo limit, level => level.verbosity ≤ limit.verbosity

/-- The thresholds, from the least verbose to the most. -/
def all : List Threshold :=
  [.off, .upTo .error, .upTo .warn, .upTo .info, .upTo .debug, .upTo .trace]

/-- The name of a threshold. -/
def name : Threshold → String
  | .off => "OFF"
  | .upTo level => level.name

/-- The threshold of a name, in letters of either case. -/
def ofName? (text : String) : Option Threshold :=
  all.find? fun threshold => threshold.name.toList = text.toList.map Char.toUpper

end Threshold

/-- A record. -/
structure Record where
  level : Level
  target : String
  message : String
  deriving DecidableEq, Repr

/-- A result together with the records written on the way to it, in their order. -/
structure Logged (Result : Type) where
  records : List Record
  result : Result

/-- The records of one message: a single one if its level is let through, else none. -/
def emit (threshold : Threshold) (level : Level) (target message : String) :
    List Record :=
  if threshold.allows level then [⟨level, target, message⟩] else []

end Metainfo.Log
