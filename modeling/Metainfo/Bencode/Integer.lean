import Metainfo.Decimal

/-!
# Integers of any size

A bencoded integer is kept as its decimal text, which is canonical: an optional minus
sign, no superfluous zeros in front, and never a negative zero.  Numbers of any
magnitude are thus written back exactly as they were read; the accessors give the number
where it fits a machine word.
-/

namespace Metainfo.Bencode

namespace Integer

/-- The minus sign. -/
abbrev minus : UInt8 := 0x2D

/-- Whether a byte string is a decimal number without a superfluous zero in front. -/
def isNatural : Bytes → Bool
  | [] => false
  | [digit] => Decimal.isDigit digit
  | digit :: digits =>
      digit != 0x30 && Decimal.isDigit digit && digits.all Decimal.isDigit

/-- Whether a byte string is the canonical decimal text of an integer. -/
def isCanonical : Bytes → Bool
  | [] => false
  | sign :: digits =>
      if sign = minus then digits.head? != some 0x30 && isNatural digits
      else isNatural (sign :: digits)

/-- The decimal text of an integer: a minus sign for negative numbers, then the
digits. -/
def textOf (value : Int) : Bytes :=
  if value < 0 then minus :: Decimal.ofNat value.natAbs else Decimal.ofNat value.natAbs

/-- Digits that do not begin with a zero are a number. -/
theorem isNatural_of_all {digits : Bytes} (nonempty : digits ≠ [])
    (all : digits.all Decimal.isDigit = true) (head : digits.head? ≠ some 0x30) :
    isNatural digits = true := by
  cases digits with
  | nil => exact absurd rfl nonempty
  | cons digit digits =>
    cases digits with
    | nil => simpa [isNatural] using all
    | cons next digits =>
      simp_all [isNatural]

/-- The decimal text of a number is one. -/
theorem isNatural_ofNat (value : Nat) : isNatural (Decimal.ofNat value) = true := by
  by_cases zero : value = 0
  · subst zero; decide
  · exact isNatural_of_all (Decimal.ofNat_ne_nil value)
      (Decimal.all_isDigit_ofNat value)
      (Decimal.head?_ofNat_ne_zero (by omega))

/-- A number without a sign is canonical. -/
theorem isCanonical_of_isNatural {digits : Bytes} (natural : isNatural digits = true) :
    isCanonical digits = true := by
  cases digits with
  | nil => simp [isNatural] at natural
  | cons digit digits =>
    have notMinus : digit ≠ minus := by
      rintro rfl
      cases digits <;> simp [isNatural, Decimal.isDigit, minus] at natural
    simp [isCanonical, notMinus, natural]

/-- Writing an integer in decimal gives canonical text. -/
theorem isCanonical_textOf (value : Int) : isCanonical (textOf value) = true := by
  unfold textOf
  split
  · have positive : 0 < value.natAbs := by omega
    simp [isCanonical, isNatural_ofNat, Decimal.head?_ofNat_ne_zero positive]
  · exact isCanonical_of_isNatural (isNatural_ofNat _)

end Integer

/-- An integer in canonical decimal text. -/
structure Integer where
  text : Bytes
  canonical : Integer.isCanonical text = true
  deriving DecidableEq

namespace Integer

/-- The integer with the given text, if the text is canonical. -/
def ofText? (text : Bytes) : Option Integer :=
  if canonical : isCanonical text = true then some ⟨text, canonical⟩ else none

/-- The integer of a number. -/
def ofInt (value : Int) : Integer :=
  ⟨textOf value, isCanonical_textOf value⟩

/-- The text as a string; its octets are ASCII. -/
def toText (integer : Integer) : String :=
  Bytes.toAsciiText integer.text

/-- The value, if it is a signed number of 64 bits. -/
def toSigned? (integer : Integer) : Option Int :=
  match integer.text with
  | [] => none
  | sign :: digits =>
      if sign = minus then
        (Decimal.readWithin (Decimal.maxSigned + 1) digits).map fun value =>
          -(value : Int)
      else (Decimal.readWithin Decimal.maxSigned (sign :: digits)).map Int.ofNat

/-- The value, if it is an unsigned number of 64 bits. -/
def toWord? (integer : Integer) : Option Nat :=
  Decimal.readWithin Decimal.maxWord integer.text

end Integer

end Metainfo.Bencode
