import Metainfo.Toml.Number

/-!
# Strings in TOML

Strings stand between double quotes, where a backslash begins an escape, or between
single quotes, where all characters stand for themselves.  Between three quotes a string
may go over several lines.
-/

namespace Metainfo.Toml

/-- Whether a character may stand in a comment or between single quotes: no control
character but the tab. -/
def isVisible (char : Char) : Bool :=
  char == '\t' || (0x20 ≤ char.toNat && char.toNat != 0x7F)

/-- Whether a character is a space or a tab. -/
def isBlank (char : Char) : Bool :=
  char == ' ' || char == '\t'

/-- How far an escape has been read: there is none, its backslash, some of its
hexadecimal digits, blanks after which a line has to end, or the line ends and blanks
that it leaves out. -/
inductive Escape where
  | none
  | begun
  | code (missing value : Nat)
  | lineEnd
  | skipping
  deriving DecidableEq, Repr

/-- The character of an escape of one letter. -/
def shortEscape? : Char → Option Char
  | 'b' => some '\x08'
  | 't' => some '\t'
  | 'n' => some '\n'
  | 'f' => some '\x0c'
  | 'r' => some '\r'
  | '"' => some '"'
  | '\\' => some '\\'
  | _ => none

/-- The character with a code, if there is one. -/
def scalar? (code : Nat) : Option Char :=
  if code.isValidChar then some (Char.ofNat code) else none

/-- Reads a string between double quotes from where an escape has been read up to,
`done` holding the characters before in reverse order.  Gives the string and the rest
after the closing quotes. -/
def readBasic (multiline : Bool) : Escape → List Char → (done : List Char) →
    Option (String × List Char)
  | _, [], _ => none
  | .begun, char :: rest, done =>
      match shortEscape? char with
      | some escaped => readBasic multiline .none rest (escaped :: done)
      | none =>
          if char = 'u' then readBasic multiline (.code 4 0) rest done
          else if char = 'U' then readBasic multiline (.code 8 0) rest done
          else if multiline = false then none
          else if isBlank char then readBasic multiline .lineEnd rest done
          else if char = '\n' then readBasic multiline .skipping rest done
          else if char = '\r' ∧ rest.head? = some '\n' then
            readBasic multiline .lineEnd rest done
          else none
  | .code missing value, char :: rest, done =>
      if isDigitOf 16 char then
        let value := value * 16 + digitValue char
        if missing ≤ 1 then
          match scalar? value with
          | some escaped => readBasic multiline .none rest (escaped :: done)
          | none => none
        else readBasic multiline (.code (missing - 1) value) rest done
      else none
  | .lineEnd, char :: rest, done =>
      if isBlank char then readBasic multiline .lineEnd rest done
      else if char = '\n' then readBasic multiline .skipping rest done
      else if char = '\r' ∧ rest.head? = some '\n' then
        readBasic multiline .lineEnd rest done
      else none
  | escape, char :: rest, done =>
      if escape = .skipping ∧
          (isBlank char ∨ char = '\n' ∨ (char = '\r' ∧ rest.head? = some '\n')) then
        readBasic multiline .skipping rest done
      else if char = '\\' then readBasic multiline .begun rest done
      else if char = '"' then
        if multiline = false then some (String.ofList done.reverse, rest)
        else
          match rest with
          | '"' :: '"' :: '"' :: '"' :: after =>
              some (String.ofList ('"' :: '"' :: done).reverse, after)
          | '"' :: '"' :: '"' :: after =>
              some (String.ofList ('"' :: done).reverse, after)
          | '"' :: '"' :: after => some (String.ofList done.reverse, after)
          | _ => readBasic multiline .none rest ('"' :: done)
      else if isVisible char then readBasic multiline .none rest (char :: done)
      else if multiline ∧ char = '\n' then readBasic multiline .none rest (char :: done)
      else if multiline ∧ char = '\r' ∧ rest.head? = some '\n' then
        readBasic multiline .none rest done
      else none

/-- Reads a string between single quotes; see `readBasic`. -/
def readLiteral (multiline : Bool) :
    List Char → (done : List Char) → Option (String × List Char)
  | [], _ => none
  | char :: rest, done =>
      if char = '\'' then
        if multiline = false then some (String.ofList done.reverse, rest)
        else
          match rest with
          | '\'' :: '\'' :: '\'' :: '\'' :: after =>
              some (String.ofList ('\'' :: '\'' :: done).reverse, after)
          | '\'' :: '\'' :: '\'' :: after =>
              some (String.ofList ('\'' :: done).reverse, after)
          | '\'' :: '\'' :: after => some (String.ofList done.reverse, after)
          | _ => readLiteral multiline rest (char :: done)
      else if isVisible char then readLiteral multiline rest (char :: done)
      else if multiline ∧ char = '\n' then readLiteral multiline rest (char :: done)
      else if multiline ∧ char = '\r' ∧ rest.head? = some '\n' then
        readLiteral multiline rest done
      else none

/-- The rest after a line end, if one stands at the front. -/
def dropLineEnd : List Char → List Char
  | '\n' :: rest => rest
  | '\r' :: '\n' :: rest => rest
  | chars => chars

/-- Reads a string of any of the four forms. -/
def readText? : List Char → Option (String × List Char)
  | '"' :: '"' :: '"' :: rest => readBasic true .none (dropLineEnd rest) []
  | '"' :: rest => readBasic false .none rest []
  | '\'' :: '\'' :: '\'' :: rest => readLiteral true (dropLineEnd rest) []
  | '\'' :: rest => readLiteral false rest []
  | _ => none

end Metainfo.Toml
