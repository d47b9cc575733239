import Metainfo.Bytes

/-!
# Decimal text

Numbers are written in decimal without leading zeros.  Reading is done digit by digit
under a bound: as soon as the number read so far exceeds the bound the reading fails, so
that arbitrarily long digit strings never give a wrong small number.
-/

namespace Metainfo.Decimal

/-- Whether an octet is one of the digits `0` to `9`. -/
def isDigit (byte : UInt8) : Bool :=
  0x30 ≤ byte && byte ≤ 0x39

/-- The number that a digit stands for. -/
def digitValue (byte : UInt8) : Nat :=
  byte.toNat - 0x30

/-- The decimal digits of a number, without leading zeros. -/
def ofNat (value : Nat) : Bytes :=
  (Nat.toDigits 10 value).map fun digit => UInt8.ofNat digit.toNat

/-- The octet of a digit character is a digit. -/
theorem isDigit_ofNat_toNat {digit : Char} (decimal : digit.isDigit = true) :
    isDigit (UInt8.ofNat digit.toNat) = true := by
  simp only [Char.isDigit, isDigit, Bool.and_eq_true, decide_eq_true_eq,
    UInt32.le_iff_toNat_le, UInt8.le_iff_toNat_le] at *
  have : digit.toNat = digit.val.toNat := rfl
  simp at *
  omega

/-- The decimal text of a number holds digits only. -/
theorem all_isDigit_ofNat (value : Nat) : (ofNat value).all isDigit = true := by
  simp only [ofNat, List.all_map, List.all_eq_true, Function.comp_apply]
  intro digit mem
  exact isDigit_ofNat_toNat (Nat.isDigit_of_mem_toDigits (by decide) (by decide) mem)

theorem ofNat_ne_nil (value : Nat) : ofNat value ≠ [] := by
  simp [ofNat, Nat.toDigits_ne_nil]

/-- A number below ten is one digit. -/
theorem ofNat_of_lt {value : Nat} (small : value < 10) :
    ofNat value = [UInt8.ofNat (value + 0x30)] := by
  rw [ofNat, Nat.toDigits_of_lt_base small]
  have : ∀ value, value < 10 → (Nat.digitChar value).toNat = value + 0x30 := by decide
  simp [this value small]

/-- The digits of a larger number are those of its tenth part and the last digit. -/
theorem ofNat_of_le {value : Nat} (large : 10 ≤ value) :
    ofNat value = ofNat (value / 10) ++ ofNat (value % 10) := by
  simp only [ofNat]
  rw [Nat.toDigits_eq_if (by decide), if_neg (by omega),
    Nat.toDigits_of_lt_base (n := value % 10) (Nat.mod_lt _ (by decide))]
  simp

/-- Only zero begins with a zero. -/
theorem head?_ofNat_ne_zero {value : Nat} (positive : 0 < value) :
    (ofNat value).head? ≠ some 0x30 := by
  induction value using Nat.strongRecOn with
  | _ value ih =>
    by_cases small : value < 10
    · rw [ofNat_of_lt small]
      have : ∀ value < 10, 0 < value → UInt8.ofNat (value + 0x30) ≠ 0x30 := by decide
      simpa using this value small positive
    · have head := ih (value / 10) (by omega) (by omega)
      obtain ⟨digit, digits, cons⟩ :=
        List.exists_cons_of_ne_nil (ofNat_ne_nil (value / 10))
      rw [ofNat_of_le (by omega), cons]
      simpa [cons] using head

/-- Extends the number read so far by one digit, unless it then exceeds the bound. -/
def extend (bound value : Nat) (byte : UInt8) : Option Nat :=
  if isDigit byte = true ∧ value * 10 + digitValue byte ≤ bound then
    some (value * 10 + digitValue byte)
  else none

/-- Reads a non-empty string of digits as a number of at most `bound`. -/
def readWithin (bound : Nat) (digits : Bytes) : Option Nat :=
  if digits = [] then none else digits.foldlM (extend bound) 0

/-- The greatest number of 64 bits. -/
def maxWord : Nat := 0xFFFFFFFFFFFFFFFF

/-- The greatest signed number of 64 bits. -/
def maxSigned : Nat := 0x7FFFFFFFFFFFFFFF

end Metainfo.Decimal
