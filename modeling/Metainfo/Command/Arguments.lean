import Metainfo.NativeText

/-!
# Arguments

The command takes one path.  A word that begins with a hyphen is an option unless it is
a hyphen alone or stands after two hyphens.  The options that ask for help or for the
version are answered where they are met; every other deviation from one non-empty path
is misuse.
-/

namespace Metainfo.Command

/-- What the arguments ask for. -/
inductive Request where
  | help
  | version
  | hash (path : NativeText)
  | misuse
  deriving DecidableEq, Repr

/-- The octet with which options begin. -/
def hyphen : UInt8 := 0x2D

/-- What an option asks for: short ones by the letter behind the hyphen, `h` or `V`,
and long ones as a whole. -/
def optionRequest (option : NativeText) : Request :=
  if option = "--help" then .help
  else if option = "--version" then .version
  else
    match option.octets with
    | _ :: 0x68 :: _ => .help
    | _ :: 0x56 :: _ => .version
    | _ => .misuse

/-- Whether a word is an option. -/
def isOption (word : NativeText) : Bool :=
  word.octets.head? = some hyphen && word ≠ "-"

/-- Reads arguments, `path` being the one met so far and `literal` telling whether
options have been ended by two hyphens.  An empty path is noticed before the next
option is answered. -/
def requestFrom (path : Option NativeText) (literal : Bool) :
    List NativeText → Request
  | [] =>
      match path with
      | none => .misuse
      | some path => if path.octets = [] then .misuse else .hash path
  | word :: words =>
      if literal = false ∧ word = "--" then requestFrom path true words
      else if literal = false ∧ isOption word then
        if path = some ⟨[]⟩ then .misuse else optionRequest word
      else
        match path with
        | some _ => .misuse
        | none => requestFrom (some word) literal words

/-- What a list of arguments asks for. -/
def Request.ofArguments (words : List NativeText) : Request :=
  requestFrom none false words

end Metainfo.Command
