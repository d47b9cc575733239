import Metainfo.Bytes

/-!
# Hexadecimal text

Octets and numbers are written with the lowercase digits `0` to `f`: an octet as exactly
two digits, a number without leading zeros.
-/

namespace Metainfo.Hex

/-- The sixteen digits in order. -/
def digits : List Char := "0123456789abcdef".toList

/-- The digit of a number below sixteen. -/
def digit (nibble : Nat) : Char := digits.getD nibble '0'

/-- The two digits of an octet. -/
def octet (byte : UInt8) : List Char :=
  [digit (byte.toNat / 16), digit (byte.toNat % 16)]

/-- The digits of a byte string, two for each octet. -/
def encode (bytes : Bytes) : String :=
  String.ofList (bytes.flatMap octet)

/-- The digits of a number, without leading zeros. -/
def number (value : Nat) : List Char :=
  Nat.toDigits 16 value

/-- Which digits a text has that shows octets: two for each, in the order of the
octets, first that of the upper half and then that of the lower half. -/
structure Shows (text : String) (bytes : Bytes) : Prop where
  length : text.toList.length = 2 * bytes.length
  upper {index : Nat} {byte : UInt8} : bytes[index]? = some byte →
    text.toList[2 * index]? = "0123456789abcdef".toList[byte.toNat / 16]?
  lower {index : Nat} {byte : UInt8} : bytes[index]? = some byte →
    text.toList[2 * index + 1]? = "0123456789abcdef".toList[byte.toNat % 16]?

/-- Octets are shown by one text only. -/
theorem Shows.unique {text other : String} {bytes : Bytes} (shows : Shows text bytes)
    (otherShows : Shows other bytes) : text = other := by
  rw [← String.toList_inj]
  apply List.ext_getElem?
  intro place
  by_cases inside : place / 2 < bytes.length
  · have here := List.getElem?_eq_getElem inside
    rcases Nat.mod_two_eq_zero_or_one place with even | odd
    · have half : place = 2 * (place / 2) := by omega
      rw [half, shows.upper here, otherShows.upper here]
    · have half : place = 2 * (place / 2) + 1 := by omega
      rw [half, shows.lower here, otherShows.lower here]
  · have length := shows.length
    have otherLength := otherShows.length
    rw [List.getElem?_eq_none (by omega), List.getElem?_eq_none (by omega)]

theorem getElem?_digits {nibble : Nat} (small : nibble < 16) :
    digits[nibble]? = some (digit nibble) := by
  rw [digit, List.getD_eq_getElem?_getD]
  have inside : nibble < digits.length := small
  rw [List.getElem?_eq_getElem inside, Option.getD_some]

/-- The digits of octets show them. -/
theorem shows_encode (bytes : Bytes) : Shows (encode bytes) bytes := by
  rw [encode]
  induction bytes with
  | nil => exact ⟨rfl, nofun, nofun⟩
  | cons first rest ih =>
    obtain ⟨length, upper, lower⟩ := ih
    rw [String.toList_ofList] at length upper lower
    have range := first.toNat_lt
    refine ⟨?_, ?_, ?_⟩ <;> rw [String.toList_ofList, List.flatMap_cons, octet]
    · rw [List.length_append, length, List.length_cons]
      simp only [List.length_cons, List.length_nil]
      omega
    · intro index byte here
      cases index with
      | zero =>
        cases here
        exact (getElem?_digits (by omega)).symm
      | succ index => exact upper here
    · intro index byte here
      cases index with
      | zero =>
        cases here
        exact (getElem?_digits (by omega)).symm
      | succ index => exact lower here

theorem shows_iff {text : String} {bytes : Bytes} :
    Shows text bytes ↔ encode bytes = text := by
  constructor
  · exact (shows_encode bytes).unique
  · rintro rfl
    exact shows_encode bytes

end Metainfo.Hex
