/-!
# Numbers in TOML

Integers are written in decimal with an optional sign and no superfluous zeros in front,
or without a sign in hexadecimal, octal or binary; they have to fit a signed word of 64
bits.  Floating-point numbers have a fraction, an exponent or both.  A single underscore
may stand between two digits.
-/

namespace Metainfo.Toml

/-- The digits of a sequence in which single underscores may stand between digits. -/
def digits? (isDigit : Char → Bool) : List Char → Option (List Char)
  | [] => none
  | [digit] => if isDigit digit then some [digit] else none
  | digit :: '_' :: rest =>
      if isDigit digit then (digits? isDigit rest).map (digit :: ·) else none
  | digit :: rest =>
      if isDigit digit then (digits? isDigit rest).map (digit :: ·) else none

/-- The number that a digit of base sixteen or less stands for. -/
def digitValue (digit : Char) : Nat :=
  if digit.isDigit then digit.toNat - '0'.toNat
  else if digit.isLower then digit.toNat - 'a'.toNat + 10
  else digit.toNat - 'A'.toNat + 10

/-- Whether a character is a digit of a base. -/
def isDigitOf (base : Nat) (char : Char) : Bool :=
  (char.isDigit || ('a' ≤ char && char ≤ 'f') || ('A' ≤ char && char ≤ 'F')) &&
    digitValue char < base

/-- The number that digits stand for. -/
def valueOf (base : Nat) (digits : List Char) : Nat :=
  digits.foldl (fun value digit => value * base + digitValue digit) 0

/-- The digits of a decimal number without superfluous zeros in front. -/
def plainDigits? (chars : List Char) : Option (List Char) :=
  match digits? Char.isDigit chars with
  | none => none
  | some digits => if digits.head? = some '0' ∧ chars ≠ ['0'] then none else some digits

/-- The sign in front of a number, true for a minus, and the rest. -/
def splitSign : List Char → Bool × List Char
  | '-' :: rest => (true, rest)
  | '+' :: rest => (false, rest)
  | chars => (false, chars)

/-- A number as a signed word, if it fits one. -/
def word? (value : Int) : Option Int64 :=
  if Int64.minValue.toInt ≤ value ∧ value ≤ Int64.maxValue.toInt then
    some (Int64.ofInt value)
  else none

/-- An integer of a base. -/
def basedInteger? (base : Nat) (chars : List Char) : Option Int64 := do
  word? (valueOf base (← digits? (isDigitOf base) chars))

/-- An integer. -/
def integer? (chars : List Char) : Option Int64 :=
  match chars with
  | '0' :: 'x' :: rest => basedInteger? 16 rest
  | '0' :: 'o' :: rest => basedInteger? 8 rest
  | '0' :: 'b' :: rest => basedInteger? 2 rest
  | _ => do
      let (negative, magnitude) := splitSign chars
      let value : Int := valueOf 10 (← plainDigits? magnitude)
      word? (if negative then -value else value)

/-- Whether `digits · 10 ^ exponent` is rounded to infinity as a double: it is not below
the middle between the greatest double and the power of two after it.  Where the number
of digits alone decides, no power is computed. -/
def overflowsDouble (digits : List Char) (exponent : Int) : Bool :=
  let significant := digits.dropWhile (· == '0')
  let magnitude := (significant.length : Int) + exponent
  if significant = [] || magnitude < 300 then false
  else if magnitude > 320 then true
  else
    decide (valueOf 10 significant * Nat.pow 10 exponent.toNat ≥
      (Nat.pow 2 1024 - Nat.pow 2 970) * Nat.pow 10 (-exponent).toNat)

/-- Whether the characters are an exponent after its letter, and which. -/
def exponent? (chars : List Char) : Option Int := do
  let (negative, magnitude) := splitSign chars
  let value := valueOf 10 (← digits? Char.isDigit magnitude)
  return if negative then -(value : Int) else value

/-- Whether the characters are a floating-point number with digits.  A positive number
too large for a double is none. -/
def isDecimalFloat (chars : List Char) : Bool :=
  let (negative, magnitude) := splitSign chars
  let isMark (char : Char) : Bool := char == 'e' || char == 'E'
  let mantissa := magnitude.takeWhile (!isMark ·)
  let whole := mantissa.takeWhile (· != '.')
  let fraction? : Option (List Char) :=
    match mantissa.dropWhile (· != '.') with
    | [] => some []
    | _ :: fraction => digits? Char.isDigit fraction
  let exponent? : Option Int :=
    match magnitude.dropWhile (!isMark ·) with
    | [] => if whole = mantissa then none else some 0
    | _ :: exponent => Toml.exponent? exponent
  match plainDigits? whole, fraction?, exponent? with
  | some whole, some fraction, some exponent =>
      negative || !overflowsDouble (whole ++ fraction) (exponent - fraction.length)
  | _, _, _ => false

/-- Whether the characters are a floating-point number. -/
def isFloat (chars : List Char) : Bool :=
  let magnitude := (splitSign chars).2
  magnitude = "inf".toList || magnitude = "nan".toList || isDecimalFloat chars

end Metainfo.Toml
