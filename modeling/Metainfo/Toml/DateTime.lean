/-!
# Dates and times in TOML

A date, a time of day, or both with an optional offset from universal time.  Dates are
checked against the calendar; the sixtieth second is allowed as a leap second.
-/

namespace Metainfo.Toml

/-- The number that exactly `count` digits at the front stand for, and the rest. -/
def fixedDigits? : (count value : Nat) → List Char → Option (Nat × List Char)
  | 0, value, rest => some (value, rest)
  | count + 1, value, digit :: rest =>
      if digit.isDigit then
        fixedDigits? count (value * 10 + (digit.toNat - '0'.toNat)) rest
      else none
  | _ + 1, _, [] => none

/-- Two digits at the front that stand for a number between two bounds. -/
def twoDigits? (low high : Nat) (chars : List Char) : Option (Nat × List Char) := do
  let (value, rest) ← fixedDigits? 2 0 chars
  if low ≤ value ∧ value ≤ high then return (value, rest) else none

/-- The rest after a character at the front. -/
def expect? (char : Char) : List Char → Option (List Char)
  | [] => none
  | first :: rest => if first = char then some rest else none

/-- The number of days of a month. -/
def daysIn (year month : Nat) : Nat :=
  if month = 2 then if year % 4 = 0 ∧ (year % 100 ≠ 0 ∨ year % 400 = 0) then 29 else 28
  else if month = 4 ∨ month = 6 ∨ month = 9 ∨ month = 11 then 30
  else 31

/-- The rest after a date. -/
def afterDate? (chars : List Char) : Option (List Char) := do
  let (year, rest) ← fixedDigits? 4 0 chars
  let (month, rest) ← twoDigits? 1 12 (← expect? '-' rest)
  let (_, rest) ← twoDigits? 1 (daysIn year month) (← expect? '-' rest)
  return rest

/-- The rest after a time of day. -/
def afterTime? (chars : List Char) : Option (List Char) := do
  let (_, rest) ← twoDigits? 0 23 chars
  let (_, rest) ← twoDigits? 0 59 (← expect? ':' rest)
  let (_, rest) ← twoDigits? 0 60 (← expect? ':' rest)
  match rest with
  | '.' :: digit :: rest =>
      if digit.isDigit then return rest.dropWhile Char.isDigit else none
  | rest => return rest

/-- Whether the characters are nothing, the mark of universal time, or an offset from
it. -/
def isOffset : List Char → Bool
  | [] => true
  | ['Z'] => true
  | ['z'] => true
  | sign :: rest =>
      (sign == '+' || sign == '-') &&
        (do
          let (_, rest) ← twoDigits? 0 23 rest
          let (_, rest) ← twoDigits? 0 59 (← expect? ':' rest)
          return rest) == some []

/-- Whether the characters are a date. -/
def isDate (chars : List Char) : Bool :=
  afterDate? chars == some []

/-- Whether the characters are a date, a time of day, or a date and a time. -/
def isDateTime (chars : List Char) : Bool :=
  match afterDate? chars with
  | none => afterTime? chars == some []
  | some [] => true
  | some (separator :: rest) =>
      (separator == 'T' || separator == 't' || separator == ' ') &&
        match afterTime? rest with
        | none => false
        | some offset => isOffset offset

end Metainfo.Toml
